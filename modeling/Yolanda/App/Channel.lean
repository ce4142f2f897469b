import Yolanda.Machine

namespace Yolanda.App

/-- `EVENT_READ` -/
def eventRead : BitVec 32 := 0x02

/-- `EVENT_WRITE` -/
def eventWrite : BitVec 32 := 0x04

/-- What an untyped pointer addresses. A number tells objects of one kind apart. -/
inductive Pointer where
  | null
  | eventLoop (number : Nat)
  | tcpServer (number : Nat)
  | tcpConnection (number : Nat)
  deriving DecidableEq, Repr

/-- The functions the library installs as read and write callbacks. -/
inductive EventCallback where
  | handleWakeup
  | handleConnectionEstablished
  | handleRead
  | handleWrite
  deriving DecidableEq, Repr

/-- `class channel`. `data` is the object given to the callbacks. -/
structure Channel where
  fd : Int
  events : BitVec 32
  eventReadCallback : Option EventCallback
  eventWriteCallback : Option EventCallback
  data : Pointer
  deriving DecidableEq

/-- The channel the constructor of `event_loop` builds for the end of its `socketPair`. -/
def wakeupChannel (eventLoop : Nat) (fd : Int) : Channel :=
  { fd
    events := eventRead
    eventReadCallback := some .handleWakeup
    eventWriteCallback := none
    data := .eventLoop eventLoop }

/-- The channel `TCPserver::start` builds for the listening socket. -/
def listeningChannel (tcpServer : Nat) (listenFd : Int) : Channel :=
  { fd := listenFd
    events := eventRead
    eventReadCallback := some .handleConnectionEstablished
    eventWriteCallback := none
    data := .tcpServer tcpServer }

/-- The channel the constructor of `tcp_connection` builds. -/
def connectionChannel (tcpConnection : Nat) (connectedFd : Int) : Channel :=
  { fd := connectedFd
    events := eventRead
    eventReadCallback := some .handleRead
    eventWriteCallback := some .handleWrite
    data := .tcpConnection tcpConnection }

/-- `struct channel_element`, an operation of the pending list without its link. The
types 1, 2 and 3 are those of add, remove and update. -/
structure ChannelElement (Ref : Type) where
  type : Nat
  channel : Ref
  deriving DecidableEq, Repr

namespace Channel

/-- `write_event_is_enabled` -/
def writeEventIsEnabled (channel : Channel) : Bool :=
  channel.events &&& eventWrite ≠ 0

/-- The channel as `write_event_enable` passes it to `update_channel_event`. -/
def writeEventEnable (channel : Channel) : Channel :=
  { channel with events := channel.events ||| eventWrite }

/-- The channel as `write_event_disable` passes it to `update_channel_event`. -/
def writeEventDisable (channel : Channel) : Channel :=
  { channel with events := channel.events &&& ~~~eventWrite }

/-- Changing the write interest keeps the descriptor. -/
theorem fd_ofEnable (channel : Channel) (enable : Bool) :
    (if enable then channel.writeEventEnable else channel.writeEventDisable).fd = channel.fd := by
  cases enable with
  | true => rfl
  | false => rfl

private theorem getLsbD_eventWrite (bit : Nat) : eventWrite.getLsbD bit = decide (bit = 2) := by
  have power : eventWrite = BitVec.twoPow 32 2 := rfl
  rw [power, BitVec.getLsbD_twoPow]
  simp [eq_comm]

/-- The write interest is the third bit of the event mask. -/
theorem writeEventIsEnabled_eq (channel : Channel) :
    channel.writeEventIsEnabled = channel.events.getLsbD 2 := by
  have bits : ∀ bit, (channel.events &&& eventWrite).getLsbD bit =
      (channel.events.getLsbD bit && decide (bit = 2)) := by
    intro bit
    rw [BitVec.getLsbD_and, getLsbD_eventWrite]
  cases set : channel.events.getLsbD 2 with
  | true =>
    have nonzero : channel.events &&& eventWrite ≠ 0 := by
      intro zero
      have third := bits 2
      rw [zero, set] at third
      cases third
    simpa [writeEventIsEnabled] using nonzero
  | false =>
    have zero : channel.events &&& eventWrite = 0 := by
      apply BitVec.eq_of_getLsbD_eq
      intro bit _
      rw [bits]
      by_cases same : bit = 2
      · subst bit
        rw [set]
        rfl
      · simp [same]
    simp [writeEventIsEnabled, zero]

@[simp] theorem enabled_writeEventEnable (channel : Channel) :
    channel.writeEventEnable.writeEventIsEnabled = true := by
  rw [writeEventIsEnabled_eq]
  change (channel.events ||| eventWrite).getLsbD 2 = true
  rw [BitVec.getLsbD_or, getLsbD_eventWrite]
  exact Bool.or_true _

@[simp] theorem enabled_writeEventDisable (channel : Channel) :
    channel.writeEventDisable.writeEventIsEnabled = false := by
  rw [writeEventIsEnabled_eq]
  change (channel.events &&& ~~~eventWrite).getLsbD 2 = false
  rw [BitVec.getLsbD_and, BitVec.getLsbD_not, getLsbD_eventWrite]
  simp

end Channel

end Yolanda.App
