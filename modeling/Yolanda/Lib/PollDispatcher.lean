import Yolanda.Foundation.SlotTable
import Yolanda.Lib.EventLoop

/-! The dispatcher of the C library over `poll`, an array of a fixed number of slots. -/

namespace Yolanda.Lib

open App (Channel)
open Foundation

/-- `POLLRDNORM` -/
def pollRdNorm : BitVec 16 := 0x040

/-- `POLLWRNORM` -/
def pollWrNorm : BitVec 16 := 0x100

/-- `struct pollfd` -/
structure Pollfd where
  fd : Int
  events : BitVec 16
  revents : BitVec 16
  deriving DecidableEq

/-- `INIT_POLL_SIZE` -/
def initPollSize : Nat := 1024

/-- The slots of `struct poll_dispatcher_data`. -/
@[ext] structure PollSet where
  eventSet : List Pollfd
  size : eventSet.length = initPollSize

/-- The events the dispatcher asks for in the name of a channel. -/
def pollEvents (channel : Channel) : BitVec 16 :=
  (if channel.events &&& App.eventRead ≠ 0 then pollRdNorm else 0) |||
    (if channel.events &&& App.eventWrite ≠ 0 then pollWrNorm else 0)

namespace PollSet

/-- `poll_init`, on the memory that `malloc` gives. -/
def init (memory : PollSet) : PollSet where
  eventSet := memory.eventSet.map fun slot => { slot with fd := -1 }
  size := (List.length_map _).trans memory.size

/-- A loop over the slots that stops at the first one that fits and changes it. -/
def modify (set : PollSet) (fits : Pollfd → Bool) (change : Pollfd → Pollfd) : PollSet where
  eventSet := modifyFirst fits change set.eventSet
  size := (length_modifyFirst fits change set.eventSet).trans set.size

/-- `poll_add` returns 0 with and without a free slot. -/
def add (set : PollSet) (channel : Channel) : PollSet :=
  set.modify (·.fd < 0) fun slot => { slot with
    fd := channel.fd
    events := pollEvents channel }

/-- `poll_del` -/
def del (set : PollSet) (channel : Channel) : PollSet :=
  set.modify (·.fd = channel.fd) fun slot => { slot with fd := -1 }

/-- `poll_update` -/
def update (set : PollSet) (channel : Channel) : PollSet :=
  set.modify (·.fd = channel.fd) fun slot => { slot with events := pollEvents channel }

end PollSet

/-- `poll_dispatcher` -/
def pollDispatcher : EventDispatcher PollSet where
  add set channel := .ok (0, set.add channel)
  del set channel := .ok (0, set.del channel)
  update set channel := .ok (0, set.update channel)

/-- The descriptor a slot watches. A negative one marks a free slot. -/
def Pollfd.key (slot : Pollfd) : Option Nat :=
  if slot.fd < 0 then none else some slot.fd.toNat

theorem Pollfd.key_iff (slot : Pollfd) (fd : Nat) : slot.key = some fd ↔ slot.fd = fd := by
  unfold key
  split
  case isTrue free => simp; omega
  case isFalse taken => simp; omega

namespace PollSet

variable {set : PollSet} {channel : Channel} {table : Nat → Option (BitVec 16)}

/-- The slots hold the events asked for by the channel of each descriptor. -/
def Watches (set : PollSet) (table : Nat → Option (BitVec 16)) : Prop :=
  Tabulates Pollfd.key Pollfd.events set.eventSet table

theorem free_iff (slot : Pollfd) : decide (slot.fd < 0) = true ↔ slot.key = none := by
  unfold Pollfd.key
  split
  case isTrue free => simp [free]
  case isFalse taken => simp [taken]

theorem named_iff (positive : 0 ≤ channel.fd) (slot : Pollfd) :
    decide (slot.fd = channel.fd) = true ↔ slot.key = some channel.fd.toNat := by
  rw [slot.key_iff, decide_eq_true_iff, Int.toNat_of_nonneg positive]

theorem init_watches (memory : PollSet) : (init memory).Watches fun _ => none := by
  apply Tabulates.empty
  intro slot member
  obtain ⟨old, _, rfl⟩ := List.mem_map.mp member
  rfl

theorem add_watches (watches : set.Watches table) (positive : 0 ≤ channel.fd)
    (fresh : table channel.fd.toNat = none) (room : ∃ slot ∈ set.eventSet, slot.key = none) :
    (set.add channel).Watches
      (Function.update table channel.fd.toNat (some (pollEvents channel))) :=
  watches.fill free_iff fresh
    (fun _ => ⟨by rw [Pollfd.key, if_neg (Int.not_lt.mpr positive)], rfl⟩) room

/-- Without a free slot the channel is forgotten. -/
theorem add_full (full : ∀ slot ∈ set.eventSet, slot.key ≠ none) : set.add channel = set :=
  PollSet.ext (modifyFirst_of_none fun slot member fit =>
    full slot member ((free_iff slot).mp fit))

theorem del_watches (watches : set.Watches table) (positive : 0 ≤ channel.fd) :
    (set.del channel).Watches (Function.update table channel.fd.toNat none) :=
  watches.clear (named_iff positive) fun _ => rfl

theorem update_watches (watches : set.Watches table) (positive : 0 ≤ channel.fd)
    (held : table channel.fd.toNat ≠ none) : (set.update channel).Watches
      (Function.update table channel.fd.toNat (some (pollEvents channel))) :=
  watches.retune (named_iff positive) (fun _ => ⟨rfl, rfl⟩) held

end PollSet

end Yolanda.Lib
