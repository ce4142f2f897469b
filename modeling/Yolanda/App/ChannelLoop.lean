import Yolanda.App.EventLoop
import Yolanda.Foundation.Mirror

/-! The handlers of an event loop with any dispatcher, and `channel_event_activate` with
callbacks that go on with the loop before they return. -/

namespace Yolanda.App

open Foundation (Mirrors)

/-- A call of one of the three handlers. An addition says whether a table that has to grow
would find the memory. -/
inductive TableOperation where
  | add (fd : Int) (channel : Nat) (memory : Bool)
  | remove (fd : Int) (channel1 : Nat)
  | update (fd : Int) (channel : Nat)
  deriving DecidableEq, Repr

/-- What can be seen of a loop from outside its table. -/
inductive Happening where
  /-- A call of the dispatcher. -/
  | control (operation : EpollControl) (channel : Channel)
  /-- A handler returns. -/
  | handled (operation : TableOperation) (code : Int)
  /-- `channel_event_activate` is called, calls a callback, and returns. -/
  | activate (fd : Int) (revents : BitVec 32)
  | callback (fd : Int) (revents : BitVec 32) (callback : EventCallback) (data : Pointer)
  | returned (fd : Int) (revents : BitVec 32) (code : Int)
  deriving DecidableEq

/-- What a callback is called for. -/
inductive Readiness where
  | read
  | write
  deriving DecidableEq, Repr

def Readiness.bit : Readiness → BitVec 32
  | .read => eventRead
  | .write => eventWrite

/-- The callback of a channel that `channel_event_activate` calls for one of its bits. -/
def Channel.callback (channel : Channel) (revents : BitVec 32) (readiness : Readiness) :
    Option EventCallback :=
  if revents &&& readiness.bit ≠ 0 then
    match readiness with
    | .read => channel.eventReadCallback
    | .write => channel.eventWriteCallback
  else none

/-- The variables of a call of `channel_event_activate`. -/
structure Activation where
  fd : Int
  revents : BitVec 32
  channel : Nat
  deriving DecidableEq, Repr

/-- What a dispatcher and `close` do with the data of the dispatcher. A failure ends the
process. -/
structure Dispatcher (Data : Type) where
  control : EpollControl → Data → Channel → Option (Int × Data)
  close : Int → Data → Data

/-- One event loop with the data of its dispatcher. `running` is the call of
`channel_event_activate` whose callback has not returned yet, with the bits it has not
come to, `reported` what `dispatch` has not come to, and `due` the event it is in the
middle of. -/
structure ChannelLoop (Data : Type) where
  dispatcherData : Data
  channels : List Channel
  channelMap : Int → Option Nat
  pending : List (ChannelElement Nat)
  reported : List EpollEvent
  due : Option EpollEvent
  running : Option (Activation × List Readiness)
  happenings : List Happening

/-- What the loop of a thread does with its table. -/
inductive TableEvent where
  | operation (operation : TableOperation)
  | setEvents (channel : Nat) (events : BitVec 32)
  | activate (fd : Int) (revents : BitVec 32)
  | callbackReturns
  deriving DecidableEq, Repr

namespace ChannelLoop

variable {Data : Type}

/-- A loop that has handled nothing. -/
def start (dispatcherData : Data) (channels : List Channel) : ChannelLoop Data where
  dispatcherData
  channels
  channelMap _ := none
  pending := []
  reported := []
  due := none
  running := none
  happenings := []

def note (loop : ChannelLoop Data) (happening : Happening) : ChannelLoop Data :=
  { loop with happenings := loop.happenings ++ [happening] }

/-- The object behind a pointer to a channel. -/
def channelAt (loop : ChannelLoop Data) (channel : Nat) : Except Fault Channel :=
  match loop.channels[channel]? with
  | some channel => .ok channel
  | none => .error .memory

/-- `channel->events = events` -/
def setEvents (loop : ChannelLoop Data) (channel : Nat) (events : BitVec 32) :
    ChannelLoop Data :=
  { loop with channels := loop.channels.modify channel fun channel =>
      { channel with events } }

variable (dispatcher : Dispatcher Data)

/-- A call of the dispatcher of the loop. -/
def control (loop : ChannelLoop Data) (operation : EpollControl) (channel : Channel) :
    Except Fault (Int × ChannelLoop Data) :=
  match dispatcher.control operation loop.dispatcherData channel with
  | none => .error .epollCtl
  | some (result, dispatcherData) =>
    .ok (result, { loop with dispatcherData }.note (.control operation channel))

/-- `handle_pending_add` -/
def handlePendingAdd (loop : ChannelLoop Data) (fd : Int) (channel : Nat) :
    Except Fault (Int × ChannelLoop Data) :=
  if fd < 0 then return (0, loop)
  else
    match loop.channelMap fd with
    | none => do
      let entered := { loop with
        channelMap := Function.update loop.channelMap fd (some channel) }
      let added ← entered.channelAt channel
      let (_, entered) ← entered.control dispatcher .add added
      return (1, entered)
    | some _ => return (0, loop)

/-- `handle_pending_remove` -/
def handlePendingRemove (loop : ChannelLoop Data) (fd : Int) (channel1 : Nat) :
    Except Fault (Int × ChannelLoop Data) := do
  let given ← loop.channelAt channel1
  if fd ≠ given.fd then throw .assertion
  else if fd < 0 then return (0, loop)
  else
    match loop.channelMap fd with
    | none => return (-1, loop)
    | some channel2 =>
      let mapped ← loop.channelAt channel2
      let (result, loop) ← loop.control dispatcher .del mapped
      return (if result = -1 then -1 else 1, { loop with
        channelMap := Function.update loop.channelMap fd none })

/-- `handle_pending_update` -/
def handlePendingUpdate (loop : ChannelLoop Data) (fd : Int) (channel : Nat) :
    Except Fault (Int × ChannelLoop Data) :=
  if fd < 0 then return (0, loop)
  else
    match loop.channelMap fd with
    | none => return (-1, loop)
    | some _ => do
      let changed ← loop.channelAt channel
      let (_, loop) ← loop.control dispatcher .mod changed
      return (0, loop)

/-- A call of a handler, with the note that it returned. -/
def operate (loop : ChannelLoop Data) (operation : TableOperation) :
    Except Fault (ChannelLoop Data) := do
  let (code, loop) ← (match operation with
    | .add fd channel _ => loop.handlePendingAdd dispatcher fd channel
    | .remove fd channel1 => loop.handlePendingRemove dispatcher fd channel1
    | .update fd channel => loop.handlePendingUpdate dispatcher fd channel)
  return loop.note (.handled operation code)

/-- A call of a callback, with the bits that come after it. -/
def call (loop : ChannelLoop Data) (activation : Activation) (later : List Readiness)
    (callback : EventCallback) (data : Pointer) : ChannelLoop Data :=
  { loop with running := some (activation, later) }.note
    (.callback activation.fd activation.revents callback data)

/-- The end of `channel_event_activate`, from the tests for these bits on, up to the next
callback. -/
def callCallbacks (loop : ChannelLoop Data) (activation : Activation) :
    List Readiness → Except Fault (ChannelLoop Data)
  | [] => .ok ({ loop with running := none }.note
      (.returned activation.fd activation.revents 0))
  | readiness :: later =>
    match loop.channels[activation.channel]? with
    | none => .error .memory
    | some channel =>
      match channel.callback activation.revents readiness with
      | some callback => .ok (loop.call activation later callback channel.data)
      | none => callCallbacks loop activation later

/-- `channel_event_activate`, up to its first callback. -/
def channelEventActivate (loop : ChannelLoop Data) (fd : Int) (revents : BitVec 32) :
    Except Fault (ChannelLoop Data) :=
  let called := loop.note (.activate fd revents)
  if fd < 0 then .ok (called.note (.returned fd revents 0))
  else
    match loop.channelMap fd with
    | none => .ok (called.note (.returned fd revents (-1)))
    | some number => do
      let channel ← loop.channelAt number
      if fd ≠ channel.fd then throw .assertion
      else called.callCallbacks ⟨fd, revents, number⟩ [.read, .write]

/-- The callback that runs returns, and `channel_event_activate` goes on. -/
def callbackReturns (loop : ChannelLoop Data) : Except Fault (ChannelLoop Data) :=
  match loop.running with
  | none => .ok loop
  | some (activation, later) => loop.callCallbacks activation later

/-- One step of the loop. While a callback runs, no other event can be activated. -/
def tableStep (loop : ChannelLoop Data) : TableEvent → Except Fault (ChannelLoop Data)
  | .operation operation => loop.operate dispatcher operation
  | .setEvents channel events => .ok (loop.setEvents channel events)
  | .activate fd revents =>
    match loop.running with
    | none => loop.channelEventActivate fd revents
    | some _ => .ok loop
  | .callbackReturns => loop.callbackReturns

/-- The event asks to remove, to change or to activate a descriptor that has no channel. -/
def Absent (loop : ChannelLoop Data) : TableEvent → Prop
  | .operation (.remove fd channel1) =>
    loop.channels[channel1]?.map Channel.fd = some fd ∧ 0 ≤ fd ∧ loop.channelMap fd = none
  | .operation (.update fd _) => 0 ≤ fd ∧ loop.channelMap fd = none
  | .activate fd _ => loop.running = none ∧ 0 ≤ fd ∧ loop.channelMap fd = none
  | _ => False

/-- The event returns -1 and does nothing else. -/
def refuse (loop : ChannelLoop Data) : TableEvent → ChannelLoop Data
  | .operation operation => loop.note (.handled operation (-1))
  | .activate fd revents => (loop.note (.activate fd revents)).note (.returned fd revents (-1))
  | _ => loop

/-- The tables of a loop whose dispatcher has the epoll instance. -/
def registry (loop : ChannelLoop Kernel) : Registry where
  kernel := loop.dispatcherData
  channels := loop.channels
  channelMap := loop.channelMap
  handled := []

/-- `event_dispatcher` -/
def epollDispatcher : Dispatcher Kernel where
  control operation kernel channel :=
    (kernel.epollCtl operation channel.fd channel.epollEvents).map fun kernel => (0, kernel)
  close fd kernel := kernel.close fd

variable {dispatcher} {loop next : ChannelLoop Data} {fd : Int} {number : Nat} {code : Int}
variable {channel : Channel} {operation : EpollControl}

theorem channelAt_ok :
    loop.channelAt number = .ok channel ↔ loop.channels[number]? = some channel := by
  unfold channelAt
  cases loop.channels[number]? with
  | none => simp
  | some found => simp

theorem tableStep_absent {event : TableEvent} (absent : loop.Absent event) :
    loop.tableStep dispatcher event = .ok (loop.refuse event) := by
  cases event with
  | operation operation =>
    cases operation with
    | add fd number memory => exact absent.elim
    | remove fd number =>
      obtain ⟨own, positive, free⟩ := absent
      obtain ⟨given, known, rfl⟩ := Option.map_eq_some_iff.mp own
      have answer : loop.handlePendingRemove dispatcher given.fd number = .ok (-1, loop) := by
        rw [handlePendingRemove, channelAt_ok.mpr known, ok_bind, if_neg (fun differs => differs rfl),
          if_neg (Int.not_lt.mpr positive), free]
        rfl
      exact congrArg (· >>= _) answer
    | update fd number =>
      obtain ⟨positive, free⟩ := absent
      have answer : loop.handlePendingUpdate dispatcher fd number = .ok (-1, loop) := by
        rw [handlePendingUpdate, if_neg (Int.not_lt.mpr positive), free]
        rfl
      exact congrArg (· >>= _) answer
  | activate fd revents =>
    obtain ⟨idle, positive, free⟩ := absent
    simp only [tableStep, idle]
    rw [channelEventActivate, if_neg (Int.not_lt.mpr positive), free]
    rfl
  | setEvents number events => exact absent.elim
  | callbackReturns => exact absent.elim

/-- A call of the dispatcher changes its data alone. -/
theorem control_ok : loop.control dispatcher operation channel = .ok (code, next) ↔
    ∃ dispatcherData, dispatcher.control operation loop.dispatcherData channel =
      some (code, dispatcherData) ∧
      { loop with dispatcherData }.note (.control operation channel) = next := by
  unfold control
  cases dispatcher.control operation loop.dispatcherData channel with
  | none => simp
  | some pair => simp [Prod.ext_iff, and_assoc]

/-- With the epoll instance for its data the dispatcher is that of the tables. -/
theorem control_epoll (loop : ChannelLoop Kernel) (operation : EpollControl) (channel : Channel) :
    Mirrors (fun result => result.2.dispatcherData) (loop.control epollDispatcher operation channel)
      (EventDispatcher.control loop.dispatcherData operation channel) := by
  have answer : epollDispatcher.control operation loop.dispatcherData channel =
      (loop.dispatcherData.epollCtl operation channel.fd channel.epollEvents).map (0, ·) := rfl
  unfold control EventDispatcher.control
  rw [answer]
  cases loop.dispatcherData.epollCtl operation channel.fd channel.epollEvents with
  | none => exact .error _ _
  | some kernel => exact .ok rfl

theorem channelAt_registry (loop : ChannelLoop Kernel) (number : Nat) :
    Mirrors id (loop.channelAt number) (loop.registry.channelAt number) := by
  unfold channelAt Registry.channelAt registry
  cases loop.channels[number]? with
  | none => rfl
  | some channel => rfl

/-- The handlers are those of the tables of the loop. -/
theorem handlePendingAdd_registry (loop : ChannelLoop Kernel) (fd : Int) (number : Nat) :
    Mirrors (Prod.map id registry) (loop.handlePendingAdd epollDispatcher fd number)
      (loop.registry.handlePendingAdd fd number) := by
  unfold handlePendingAdd Registry.handlePendingAdd
  refine .ite (fun _ => .ok rfl) fun _ => ?_
  have same : loop.registry.channelMap fd = loop.channelMap fd := rfl
  cases found : loop.channelMap fd with
  | some other =>
    rw [same, found]
    exact .ok rfl
  | none =>
    rw [same, found]
    refine (channelAt_registry _ number).bind ?_
    intro added _
    refine (control_epoll _ .add added).bind ?_
    intro ⟨result, next⟩ success
    obtain ⟨kernel, _, rfl⟩ := control_ok.mp success
    exact .ok rfl

theorem handlePendingRemove_registry (loop : ChannelLoop Kernel) (fd : Int) (number : Nat) :
    Mirrors (Prod.map id registry) (loop.handlePendingRemove epollDispatcher fd number)
      (loop.registry.handlePendingRemove fd number) := by
  unfold handlePendingRemove Registry.handlePendingRemove
  refine (channelAt_registry loop number).bind ?_
  intro given _
  refine .ite (fun _ => .error _ _) fun _ => .ite (fun _ => .ok rfl) fun _ => ?_
  have same : loop.registry.channelMap fd = loop.channelMap fd := rfl
  cases found : loop.channelMap fd with
  | none =>
    rw [same, found]
    exact .ok rfl
  | some other =>
    rw [same, found]
    refine (channelAt_registry loop other).bind ?_
    intro mapped _
    refine (control_epoll loop .del mapped).bind ?_
    intro ⟨result, next⟩ success
    obtain ⟨kernel, deleted, rfl⟩ := control_ok.mp success
    obtain ⟨_, _, shape⟩ := Option.map_eq_some_iff.mp deleted
    cases shape
    exact .ok rfl

theorem handlePendingUpdate_registry (loop : ChannelLoop Kernel) (fd : Int) (number : Nat) :
    Mirrors (Prod.map id registry) (loop.handlePendingUpdate epollDispatcher fd number)
      (loop.registry.handlePendingUpdate fd number) := by
  unfold handlePendingUpdate Registry.handlePendingUpdate
  refine .ite (fun _ => .ok rfl) fun _ => ?_
  have same : loop.registry.channelMap fd = loop.channelMap fd := rfl
  cases found : loop.channelMap fd with
  | none =>
    rw [same, found]
    exact .ok rfl
  | some other =>
    rw [same, found]
    refine (channelAt_registry loop number).bind ?_
    intro changed _
    refine (control_epoll loop .mod changed).bind ?_
    intro ⟨result, next⟩ success
    obtain ⟨kernel, _, rfl⟩ := control_ok.mp success
    exact .ok rfl

end ChannelLoop

end Yolanda.App
