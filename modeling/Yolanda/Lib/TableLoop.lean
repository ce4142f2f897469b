import Yolanda.App.ChannelLoop
import Yolanda.Lib.EventLoop

/-! The handlers and `channel_event_activate` of the C library next to those of the C++
library, with one dispatcher for both. -/

namespace Yolanda.Lib

open App (Activation Channel ChannelLoop Dispatcher EpollControl EventCallback Happening
  Readiness TableEvent TableOperation)
open Foundation

/-- The data of a dispatcher, and what was seen of the loop. -/
structure Recorded (Data : Type) where
  data : Data
  happenings : List Happening

namespace Recorded

variable {Data : Type} (dispatcher : Dispatcher Data)

/-- A call of the dispatcher, whose failure ends the process. -/
def control (operation : EpollControl) (recorded : Recorded Data) (channel : Channel) :
    Except Stop (Int × Recorded Data) :=
  match dispatcher.control operation recorded.data channel with
  | none => .error .epollCtl
  | some (result, data) =>
    .ok (result, ⟨data, recorded.happenings ++ [.control operation channel]⟩)

/-- A dispatcher as `struct event_dispatcher`. -/
def functions : EventDispatcher (Recorded Data) where
  add := control dispatcher .add
  del := control dispatcher .del
  update := control dispatcher .mod

end Recorded

/-- The loop of a thread, with the call of `channel_event_activate` whose callback has not
returned yet. -/
structure TableLoop (Data : Type) extends EventLoop (Recorded Data) where
  running : Option (Activation × List Readiness)

namespace TableLoop

variable {Data : Type}

def note (loop : TableLoop Data) (happening : Happening) : TableLoop Data :=
  { loop with dispatcherData := { loop.dispatcherData with
      happenings := loop.dispatcherData.happenings ++ [happening] } }

/-- The loop after `map_init`. -/
def start (data : Data) (channels : List Channel) : TableLoop Data where
  dispatcherData := ⟨data, []⟩
  channels
  channelMap := ⟨[]⟩
  running := none

/-- A table with a place for each natural number as one for all numbers. -/
def signed (lookup : Nat → Option Nat) (fd : Int) : Option Nat :=
  if fd < 0 then none else lookup fd.toNat

/-- The loop of the C++ library with the same contents. -/
def counterpart (loop : TableLoop Data) : ChannelLoop Data where
  dispatcherData := loop.dispatcherData.data
  channels := loop.channels
  channelMap := signed loop.channelMap.lookup
  pending := []
  reported := []
  due := none
  running := loop.running
  happenings := loop.dispatcherData.happenings

variable (dispatcher : Dispatcher Data)

/-- A call of a handler. An update that ends without a value is taken to return 0. -/
def operate (loop : TableLoop Data) (operation : TableOperation) :
    Except Stop (TableLoop Data) := do
  let functions := Recorded.functions dispatcher
  let (code, after) ← (match operation with
    | .add fd channel memory => loop.handlePendingAdd functions memory fd channel
    | .remove fd channel1 => loop.handlePendingRemove functions fd channel1
    | .update fd channel => do
      let (code, after) ← loop.handlePendingUpdate functions fd channel
      return (code.getD 0, after))
  return { loop with toEventLoop := after }.note (.handled operation code)

/-- A call of a callback, with the bits that come after it. -/
def call (loop : TableLoop Data) (activation : Activation) (later : List Readiness)
    (callback : EventCallback) (data : App.Pointer) : TableLoop Data :=
  { loop with running := some (activation, later) }.note
    (.callback activation.fd activation.revents callback data)

/-- The end of `channel_event_activate`, from the tests for these bits on, up to the next
callback. -/
def callCallbacks (loop : TableLoop Data) (activation : Activation) :
    List Readiness → Except Stop (TableLoop Data)
  | [] => .ok ({ loop with running := none }.note
      (.returned activation.fd activation.revents 0))
  | readiness :: later =>
    match loop.channels[activation.channel]? with
    | none => .error .memory
    | some channel =>
      match channel.callback activation.revents readiness with
      | some callback => .ok (loop.call activation later callback channel.data)
      | none => callCallbacks loop activation later

/-- `channel_event_activate`, up to its first callback. -/
def channelEventActivate (loop : TableLoop Data) (fd : Int) (revents : BitVec 32) :
    Except Stop (TableLoop Data) :=
  let called := loop.note (.activate fd revents)
  if fd < 0 then .ok (called.note (.returned fd revents 0))
  else if fd ≥ loop.channelMap.nentries then .ok (called.note (.returned fd revents (-1)))
  else do
    match ← loop.channelMap.read fd.toNat with
    | none => throw .emptySlot
    | some number =>
      let channel ← loop.channelAt number
      if fd ≠ channel.fd then throw .assertion
      else called.callCallbacks ⟨fd, revents, number⟩ [.read, .write]

/-- The callback that runs returns, and `channel_event_activate` goes on. -/
def callbackReturns (loop : TableLoop Data) : Except Stop (TableLoop Data) :=
  match loop.running with
  | none => .ok loop
  | some (activation, later) => loop.callCallbacks activation later

/-- One step of the loop. While a callback runs, no other event can be activated. -/
def step (loop : TableLoop Data) : TableEvent → Except Stop (TableLoop Data)
  | .operation operation => loop.operate dispatcher operation
  | .setEvents channel events =>
    .ok { loop with toEventLoop := loop.toEventLoop.setEvents channel events }
  | .activate fd revents =>
    match loop.running with
    | none => loop.channelEventActivate fd revents
    | some _ => .ok loop
  | .callbackReturns => loop.callbackReturns

/-- The table has a place for what is asked of it: an addition beyond its end finds the
memory for more, what is removed or activated inside it is there, and what is updated is
inside. -/
def Placed (loop : TableLoop Data) : TableEvent → Prop
  | .operation (.add fd _ memory) => loop.channelMap.nentries ≤ fd → memory = true
  | .operation (.remove fd channel1) =>
    loop.channels[channel1]?.map Channel.fd = some fd → 0 ≤ fd →
      fd < loop.channelMap.nentries → loop.channelMap.lookup fd.toNat ≠ none
  | .operation (.update fd _) => 0 ≤ fd → fd < loop.channelMap.nentries
  | .activate fd _ => loop.running = none → 0 ≤ fd → fd < loop.channelMap.nentries →
    loop.channelMap.lookup fd.toNat ≠ none
  | _ => True

/-- The descriptors an operation adds are below 2^27. -/
def Small : TableEvent → Prop
  | .operation (.add fd _ _) => fd < 2 ^ 27
  | _ => True

end TableLoop

end Yolanda.Lib
