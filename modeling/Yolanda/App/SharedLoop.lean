import Yolanda.App.EventLoop
import Yolanda.Foundation.LinkedQueue

/-! One event loop and the threads that call it, in the single steps of these calls:
taking the mutex, testing, appending, releasing the mutex, waking up and the loop over
the pending list. -/

namespace Yolanda.App

open Foundation

/-- The calls of `do_channel_event`, on a channel. -/
inductive Operation where
  | add (channel : Nat)
  | remove (channel : Nat)
  | update (channel : Nat)
  deriving DecidableEq, Repr

/-- What `channel_buffer_nolock` stores for the call. -/
def Operation.element : Operation → ChannelElement Nat
  | .add channel => ⟨1, channel⟩
  | .remove channel => ⟨2, channel⟩
  | .update channel => ⟨3, channel⟩

/-- Where a thread stands in `do_channel_event` and `handle_pending_channel`. -/
inductive Place where
  | outside
  /-- Before `pthread_mutex_lock` in `do_channel_event`. -/
  | entering (operation : Operation)
  /-- Before the assertion. -/
  | locked (operation : Operation)
  /-- Before `channel_buffer_nolock`. -/
  | asserted (operation : Operation)
  /-- Before `pthread_mutex_unlock`. -/
  | appended
  /-- Before `wakeup` or `handle_pending_channel`. -/
  | unlocked
  /-- Before `pthread_mutex_lock` in `handle_pending_channel`. -/
  | handling
  /-- Before `is_handle_pending = 1`. -/
  | begun
  /-- In the loop, with `channelElement`. -/
  | walking (cursor : Option Nat)
  /-- Before `pthread_mutex_unlock`, with the list and the flag reset. -/
  | walked
  deriving DecidableEq, Repr

/-- The places between taking and releasing the mutex. -/
def Place.holds : Place → Bool
  | .locked _ | .asserted _ | .appended | .begun | .walking _ | .walked => true
  | _ => false

/-- The shared fields of the loop, its tables and where each thread stands. `wakeups`
counts the bytes in `socketPair`, and `woken` tells that the loop read one and has not
handled the list since. `asked` holds the operations in the order in which their calls
took the mutex. -/
structure SharedLoop where
  owner : Nat
  mutex : Option Nat
  isHandlePending : Bool
  pending : LinkedQueue (ChannelElement Nat)
  registry : Registry
  places : Nat → Place
  wakeups : Nat
  woken : Bool
  asked : List (ChannelElement Nat)

/-- The steps of the threads, and what else happens to channels and descriptors. -/
inductive ThreadEvent where
  | call (thread : Nat) (operation : Operation)
  /-- The loop of `run` comes to `handle_pending_channel`. -/
  | handle
  /-- `handleWakeup` -/
  | wake
  | advance (thread : Nat)
  | build (channel : Channel)
  | retune (channel : Nat) (events : BitVec 32)
  | kernel (kernel : Kernel)

namespace SharedLoop

def start (owner : Nat) (opened : Int → Bool) : SharedLoop :=
  { owner
    mutex := none
    isHandlePending := false
    pending := .empty
    registry := (EventLoop.start opened).registry
    places := fun _ => .outside
    wakeups := 0
    woken := false
    asked := [] }

def move (loop : SharedLoop) (thread : Nat) (place : Place) : SharedLoop :=
  { loop with places := Function.update loop.places thread place }

/-- The next step of a thread. -/
def advance (loop : SharedLoop) (thread : Nat) : Except Fault SharedLoop :=
  match loop.places thread with
  | .outside => .ok loop
  | .entering operation =>
    match loop.mutex with
    | some _ => .ok loop
    | none =>
      .ok ({ loop with mutex := some thread, asked := loop.asked ++ [operation.element] }.move
        thread (.locked operation))
  | .locked operation =>
    if loop.isHandlePending then .error .assertion
    else .ok (loop.move thread (.asserted operation))
  | .asserted operation =>
    match loop.pending.push operation.element with
    | none => .error .memory
    | some pending => .ok ({ loop with pending }.move thread .appended)
  | .appended => .ok ({ loop with mutex := none }.move thread .unlocked)
  | .unlocked =>
    if thread = loop.owner then .ok (loop.move thread .handling)
    else .ok ({ loop with wakeups := loop.wakeups + 1 }.move thread .outside)
  | .handling =>
    match loop.mutex with
    | some _ => .ok loop
    | none => .ok ({ loop with mutex := some thread, woken := false }.move thread .begun)
  | .begun =>
    .ok ({ loop with isHandlePending := true }.move thread (.walking loop.pending.head))
  | .walking none =>
    .ok ({ loop with isHandlePending := false, pending := loop.pending.reset }.move thread .walked)
  | .walking (some address) =>
    match loop.pending.heap[address]? with
    | none => .error .memory
    | some node => do
      let registry ← loop.registry.handlePending node.value
      return { loop with registry }.move thread (.walking node.next)
  | .walked => .ok ({ loop with mutex := none }.move thread .outside)

end SharedLoop

/-- A step that cannot be taken changes nothing. -/
def threadStep (loop : SharedLoop) : ThreadEvent → Except Fault SharedLoop
  | .call thread operation =>
    if loop.places thread = .outside ∧ (loop.registry.fdOf operation.element.channel).isSome then
      .ok (loop.move thread (.entering operation))
    else .ok loop
  | .handle =>
    if loop.places loop.owner = .outside then .ok (loop.move loop.owner .handling)
    else .ok loop
  | .wake =>
    if loop.places loop.owner = .outside ∧ 0 < loop.wakeups then
      .ok { loop with wakeups := loop.wakeups - 1, woken := true }
    else .ok loop
  | .advance thread => loop.advance thread
  | .build channel =>
    .ok { loop with registry :=
      { loop.registry with channels := loop.registry.channels ++ [channel] } }
  | .retune channel events =>
    .ok { loop with registry :=
      { loop.registry with
        channels := loop.registry.channels.modify channel fun channel => { channel with events } } }
  | .kernel kernel => .ok { loop with registry := { loop.registry with kernel } }

end Yolanda.App
