import Yolanda.Lib.EntryFilled
import Yolanda.Lib.HttpServer
import Yolanda.Lib.KeepAlive

/-! The HTTP server of the C library with its loop over `poll`: which connection gets the events of
a descriptor. -/

namespace Yolanda.Lib

open Foundation
open App (WriteResult)

/-- What the callback for a descriptor meets: the result of `accept`, and what the handlers of a
connection read and write. `memory` says whether `realloc` finds the memory for the table. -/
structure Meeting where
  accepted : Option Nat
  memory : Bool
  received : Option Bytes
  turn : Turn
  written : WriteResult

/-- The loop and the connections, in the order of their channels, which come behind those for the
wakeup and for the listening socket. `log` has the events each descriptor has had. -/
structure HttpSite where
  running : Running PollSet (Nat × Nat)
  connections : List HttpConnection
  log : Int → List HttpEvent

inductive SiteEvent where
  /-- `event_loop_init` and `tcp_server_start` add their channel. -/
  | register (channel : Fin 2) (memory : Bool)
  /-- `poll` returns. -/
  | poll (conditions : Int → Conditions)
  /-- `poll_dispatch` comes to the next slot. -/
  | serve (meeting : Meeting)
  | handlePending

/-- `event_loop_update_channel_event` is called, for an object that is no loop. -/
def updates (action : App.Action) : Bool :=
  match action with
  | .update _ => true
  | _ => false

namespace HttpSite

def start (memory : PollSet) (wakeupFd listenFd : Nat) : HttpSite :=
  { running := .start (.init memory)
      [App.wakeupChannel 0 wakeupFd, App.listeningChannel 0 listenFd]
    connections := []
    log := fun _ => [] }

/-- `handle_connection_established`, which does not look at the result of `accept`. -/
def accept (site : HttpSite) (meeting : Meeting) : HttpSite × List Effect :=
  let connectedFd := match meeting.accepted with
    | some fd => (fd : Int)
    | none => -1
  let number := site.connections.length + 2
  let connection := HttpConnection.established number connectedFd
  let dispatch := site.running.dispatch
  ({ site with
    running := { site.running with
      dispatch := { dispatch with channels := dispatch.channels ++ [connection.chan] } }
    connections := site.connections ++ [connection] }, [.add number meeting.memory])

/-- A handler of a connection. It removes the channel when the connection is closed. -/
def handle (strncmp : Bytes → Bytes → Int) (fuel : Nat) (site : HttpSite) (fd : Int)
    (index : Nat) (event : HttpEvent) : Except NoReturn (HttpSite × List Effect) :=
  match site.connections[index]? with
  | none => .ok (site, [])
  | some connection => do
    let after ← httpStep strncmp fuel connection event
    if after.trace.any updates then throw (.stopped .memory)
    else return ({ site with
      connections := site.connections.set index after
      log := Function.update site.log fd (site.log fd ++ [event]) },
        if connection.watched && !after.watched then [.remove] else [])

/-- The read callback of the channel that a descriptor has: `handleWakeup`,
`handle_connection_established` or `handle_read`. -/
def readCallback (strncmp : Bytes → Bytes → Int) (fuel : Nat) (site : HttpSite) (fd : Int)
    (meeting : Meeting) : Except NoReturn (HttpSite × List Effect) :=
  match site.running.dispatch.channelMap.lookup fd.toNat with
  | some 1 => .ok (site.accept meeting)
  | some (index + 2) => site.handle strncmp fuel fd index (.read meeting.received meeting.turn)
  | _ => .ok (site, [])

/-- The write callback, which only the channels of connections have. -/
def writeCallback (strncmp : Bytes → Bytes → Int) (fuel : Nat) (site : HttpSite) (fd : Int)
    (meeting : Meeting) : Except NoReturn (HttpSite × List Effect) :=
  match site.running.dispatch.channelMap.lookup fd.toNat with
  | some (index + 2) => site.handle strncmp fuel fd index (.writable meeting.written)
  | _ => .ok (site, [])

/-- The loop goes on by one step. -/
def advance (site : HttpSite) (event : LoopEvent PollSet (Int → Conditions)) :
    Except NoReturn HttpSite := do
  let running ← (site.running.step pollBackend event).mapError .stopped
  return { site with running }

end HttpSite

/-- A step of the server. -/
def siteStep (strncmp : Bytes → Bytes → Int) (fuel : Nat) (site : HttpSite) :
    SiteEvent → Except NoReturn HttpSite
  | .register channel memory => do
    let dispatch ← (site.running.dispatch.doChannelEvent pollDispatcher
      (.add channel memory)).mapError .stopped
    return { site with running := { site.running with dispatch } }
  | .poll conditions => site.advance (.wait conditions)
  | .serve meeting =>
    match site.running.batch.bind (pollBackend.next site.running.dispatch.dispatcherData) with
    | some (.activate fd readable writable, _) => do
      let (site, reads) ← (if readable then site.readCallback strncmp fuel fd meeting
        else return (site, []))
      let (site, writes) ← (if writable then site.writeCallback strncmp fuel fd meeting
        else return (site, []))
      site.advance (.serve reads writes)
    | _ => site.advance (.serve [] [])
  | .handlePending => site.advance .handlePending

section Steady

/-- What a call adds to the trace, and that it leaves the channel as it is unless it calls
`event_loop_update_channel_event`. -/
def Steady (connection after : TcpConnection) : Prop :=
  ∃ actions, after.trace = connection.trace ++ actions ∧
    (actions.any updates = true ∨ after.chan = connection.chan)

variable {connection middle after : TcpConnection} {result : WriteResult}

theorem Steady.refl (connection : TcpConnection) : Steady connection connection :=
  ⟨[], (List.append_nil _).symm, .inr rfl⟩

theorem Steady.trans (first : Steady connection middle) (second : Steady middle after) :
    Steady connection after := by
  obtain ⟨actions, trace, updated⟩ := first
  obtain ⟨more, later, updatedLater⟩ := second
  refine ⟨actions ++ more, by rw [later, trace, List.append_assoc], ?_⟩
  rw [List.any_append, Bool.or_eq_true]
  rcases updated with yes | same
  · exact .inl (.inl yes)
  · rcases updatedLater with yes | sameLater
    · exact .inl (.inr yes)
    · exact .inr (sameLater.trans same)

theorem steady_record (connection : TcpConnection) (actions : List App.Action) :
    Steady connection (connection.record actions) :=
  ⟨actions, rfl, .inr rfl⟩

theorem queueRest_steady {source : Pointer} {nleft : Nat} {memory : Bool}
    (success : connection.queueRest source nleft memory = .ok after) :
    Steady connection after := by
  unfold TcpConnection.queueRest at success
  split at success
  case isTrue =>
    obtain ⟨output, _, rest⟩ := bind_eq_ok.mp success
    simp only [] at rest
    split at rest
    · cases rest
      exact ⟨[], (List.append_nil _).symm, .inr rfl⟩
    · cases rest
      exact ⟨[.update connection.chan.data], rfl, .inl rfl⟩
  case isFalse =>
    cases success
    exact .refl connection

theorem sendData_steady {data : Pointer} {size sent : Int} {memory : Bool}
    (success : connection.sendData data size result memory = .ok (sent, after)) :
    Steady connection after := by
  unfold TcpConnection.sendData at success
  obtain ⟨⟨nwrited, nleft, direct⟩, written, rest⟩ := bind_eq_ok.mp success
  obtain ⟨queued, queues, same⟩ := bind_eq_ok.mp rest
  obtain ⟨_, rfl⟩ := Prod.mk.inj (Except.ok.inj same)
  refine Steady.trans ?_ (queueRest_steady queues)
  unfold TcpConnection.writeDirectly at written
  obtain ⟨idle, _, written⟩ := bind_eq_ok.mp written
  cases idle with
  | true =>
    obtain ⟨bytes, _, written⟩ := bind_eq_ok.mp written
    cases result with
    | wrote count =>
      cases written
      exact steady_record connection _
    | failed errno =>
      cases written
      exact steady_record connection _
  | false =>
    cases written
    exact steady_record connection _

theorem sendBuffer_steady {buffer drained : Buffer} {sent : Int} {memory : Bool}
    (success : connection.sendBuffer buffer result memory = .ok (sent, after, drained)) :
    Steady connection after := by
  unfold TcpConnection.sendBuffer at success
  obtain ⟨size, _, rest⟩ := bind_eq_ok.mp success
  obtain ⟨⟨count, queued⟩, sends, rest⟩ := bind_eq_ok.mp rest
  obtain ⟨readIndex, _, same⟩ := bind_eq_ok.mp rest
  cases same
  exact sendData_steady sends

theorem handleWrite_steady (success : connection.handleWrite result = .ok after) :
    Steady connection after := by
  unfold TcpConnection.handleWrite at success
  obtain ⟨readable, _, rest⟩ := bind_eq_ok.mp success
  obtain ⟨queued, _, rest⟩ := bind_eq_ok.mp rest
  cases result with
  | failed errno =>
    cases rest
    exact steady_record connection _
  | wrote count =>
    simp only [] at rest
    split at rest
    · obtain ⟨readIndex, _, rest⟩ := bind_eq_ok.mp rest
      obtain ⟨left, _, rest⟩ := bind_eq_ok.mp rest
      split at rest
      · cases rest
        exact ⟨[.write (queued.take count), .update connection.chan.data],
          List.append_assoc .., .inl rfl⟩
      · cases rest
        exact ⟨[.write (queued.take count)], rfl, .inr rfl⟩
    · cases rest
      exact steady_record connection _

variable {Value Other : Type}

theorem bind_returns {first : Except NoReturn Value} {next : Value → Except NoReturn Other}
    {result : Other} :
    (first >>= next) = .ok result ↔ ∃ value, first = .ok value ∧ next value = .ok result := by
  cases first with
  | error stop => exact ⟨nofun, nofun⟩
  | ok value =>
    constructor
    · exact fun taken => ⟨value, rfl, taken⟩
    · rintro ⟨_, ⟨⟩, taken⟩
      exact taken

theorem bind_stops {first : Except NoReturn Value} {next : Value → Except NoReturn Other}
    {stop : NoReturn} : (first >>= next) = .error stop ↔
      first = .error stop ∨ ∃ value, first = .ok value ∧ next value = .error stop := by
  cases first with
  | error inner =>
    constructor
    · intro same
      cases same
      exact .inl rfl
    · rintro (⟨⟨⟩⟩ | ⟨_, ⟨⟩, _⟩)
      rfl
  | ok value =>
    constructor
    · exact fun failed => .inr ⟨value, rfl, failed⟩
    · rintro (⟨⟨⟩⟩ | ⟨_, ⟨⟩, failed⟩)
      exact failed

theorem mapError_returns {first : Except Stop Value} {value : Value} :
    first.mapError NoReturn.stopped = .ok value ↔ first = .ok value := by
  cases first with
  | error stop => exact ⟨nofun, nofun⟩
  | ok other => simp [Except.mapError]

namespace HttpConnection

variable {strncmp : Bytes → Bytes → Int} {fuel : Nat} {turn : Turn}
  {connection after : HttpConnection}

theorem shutdown_steady (connection : HttpConnection) :
    Steady connection.toTcpConnection connection.shutdown.toTcpConnection :=
  ⟨_, rfl, .inr rfl⟩

theorem rejectMalformed_steady {ok : Int}
    (success : connection.rejectMalformed ok turn = .ok after) :
    Steady connection.toTcpConnection after.toTcpConnection := by
  unfold rejectMalformed at success
  split at success
  case isTrue =>
    obtain ⟨⟨count, sent⟩, sends, same⟩ := bind_eq_ok.mp success
    cases same
    exact (sendData_steady sends).trans ⟨_, rfl, .inr rfl⟩
  case isFalse =>
    cases success
    exact .refl _

theorem answerRequest_steady {request : RequestBlocks}
    (success : connection.answerRequest strncmp request turn = .ok after) :
    Steady connection.toTcpConnection after.toTcpConnection := by
  unfold answerRequest at success
  simp only [] at success
  obtain ⟨buffer, _, rest⟩ := bind_eq_ok.mp success
  obtain ⟨⟨count, sent, drained⟩, sends, rest⟩ := bind_eq_ok.mp rest
  obtain ⟨closes, _, same⟩ := bind_eq_ok.mp rest
  cases same
  refine (sendBuffer_steady sends).trans ?_
  split
  · exact ⟨_, rfl, .inr rfl⟩
  · exact .refl _

theorem httpOnMessage_steady (success : connection.httpOnMessage strncmp fuel turn = .ok after) :
    Steady connection.toTcpConnection after.toTcpConnection := by
  unfold httpOnMessage at success
  cases current : connection.request with
  | none =>
    rw [current] at success
    cases success
  | some request =>
    rw [current] at success
    obtain ⟨⟨ok, parsed⟩, _, rest⟩ := bind_returns.mp success
    obtain ⟨rejected, rejects, rest⟩ := bind_returns.mp rest
    have first := rejectMalformed_steady (mapError_returns.mp rejects)
    split at rest
    · exact first.trans (answerRequest_steady (mapError_returns.mp rest))
    · cases rest
      exact first

theorem handleConnectionClosed_steady (success : connection.handleConnectionClosed = .ok after) :
    Steady connection.toTcpConnection after.toTcpConnection := by
  unfold handleConnectionClosed httpOnConnectionClosed at success
  split at success
  · cases success
    exact ⟨_, rfl, .inr rfl⟩
  · obtain ⟨_, _, same⟩ := bind_eq_ok.mp success
    cases same
    exact ⟨_, rfl, .inr rfl⟩

theorem handleRead_steady {received : Option Bytes}
    (success : connection.handleRead strncmp fuel received turn = .ok after) :
    Steady connection.toTcpConnection after.toTcpConnection := by
  unfold handleRead at success
  obtain ⟨⟨result, input⟩, _, rest⟩ := bind_returns.mp success
  simp only [] at rest
  split at rest
  · exact @httpOnMessage_steady _ _ _ { connection with inputBuffer := input } _ rest
  · exact @handleConnectionClosed_steady { connection with inputBuffer := input } _
      (mapError_returns.mp rest)

end HttpConnection

theorem httpStep_steady {strncmp : Bytes → Bytes → Int} {fuel : Nat}
    {connection after : HttpConnection} {event : HttpEvent}
    (success : httpStep strncmp fuel connection event = .ok after) :
    Steady connection.toTcpConnection after.toTcpConnection := by
  unfold httpStep at success
  split at success
  · cases event with
    | read received turn => exact HttpConnection.handleRead_steady success
    | writable result =>
      obtain ⟨written, writes, same⟩ := bind_returns.mp success
      cases same
      exact handleWrite_steady (mapError_returns.mp writes)
  · cases success
    exact .refl _

/-- A connection that never calls `event_loop_update_channel_event` has the channel it was made
with. -/
theorem httpStep_chan {strncmp : Bytes → Bytes → Int} {fuel : Nat}
    {connection after : HttpConnection} {event : HttpEvent}
    (success : httpStep strncmp fuel connection event = .ok after)
    (silent : ¬ after.trace.any updates = true) : after.chan = connection.chan := by
  obtain ⟨actions, trace, updated⟩ := httpStep_steady success
  refine updated.resolve_left fun yes => silent ?_
  rw [trace, List.any_append, yes, Bool.or_true]

end Steady

section Slots

variable {set : PollSet} {channel : App.Channel}

/-- Every slot in use asks for input alone. -/
def PollSet.Reads (set : PollSet) : Prop :=
  ∀ slot ∈ set.eventSet, 0 ≤ slot.fd → slot.events = pollRdNorm

/-- No slot is reported writable. -/
def PollSet.Quiet (set : PollSet) : Prop :=
  ∀ slot ∈ set.eventSet, slot.revents &&& pollWrNorm = 0

/-- A slot of a changed array is an old one or the change of one. -/
theorem mem_modify {fits : Pollfd → Bool} {change : Pollfd → Pollfd} {slot : Pollfd}
    (member : slot ∈ (set.modify fits change).eventSet) :
    slot ∈ set.eventSet ∨ ∃ old ∈ set.eventSet, slot = change old := by
  obtain ⟨index, place⟩ := List.mem_iff_getElem?.mp member
  rcases getElem?_modifyFirst_cases place with same | ⟨old, held, _, changed, _⟩
  · exact .inl (List.mem_iff_getElem?.mpr ⟨index, same⟩)
  · exact .inr ⟨old, List.mem_iff_getElem?.mpr ⟨index, held⟩, changed⟩

namespace PollSet

theorem Reads.init (memory : PollSet) : (init memory).Reads := by
  intro slot member used
  obtain ⟨old, _, rfl⟩ := List.mem_map.mp member
  exact absurd used (by decide : ¬ (0 : Int) ≤ -1)

theorem Reads.add (reads : set.Reads) (asks : channel.events = App.eventRead) :
    (set.add channel).Reads := by
  intro slot member used
  rcases mem_modify member with old | ⟨old, _, rfl⟩
  · exact reads slot old used
  · simp only [pollEvents, asks]
    decide

theorem Reads.del (reads : set.Reads) (channel : App.Channel) : (set.del channel).Reads := by
  intro slot member used
  rcases mem_modify member with old | ⟨old, _, rfl⟩
  · exact reads slot old used
  · exact absurd used (by decide : ¬ (0 : Int) ≤ -1)

theorem Reads.poll (reads : set.Reads) (conditions : Int → Conditions) :
    (set.poll conditions).Reads := by
  intro slot member used
  obtain ⟨old, held, rfl⟩ := List.mem_map.mp member
  exact reads old held used

theorem Quiet.add (quiet : set.Quiet) (channel : App.Channel) : (set.add channel).Quiet := by
  intro slot member
  rcases mem_modify member with old | ⟨old, held, rfl⟩
  · exact quiet slot old
  · exact quiet old held

theorem Quiet.del (quiet : set.Quiet) (channel : App.Channel) : (set.del channel).Quiet := by
  intro slot member
  rcases mem_modify member with old | ⟨old, held, rfl⟩
  · exact quiet slot old
  · exact quiet old held

/-- `poll` reports a descriptor writable only where it is asked to. -/
theorem Reads.quiet (reads : set.Reads) (conditions : Int → Conditions) :
    (set.poll conditions).Quiet := by
  intro slot member
  obtain ⟨old, held, rfl⟩ := List.mem_map.mp member
  by_cases used : old.fd < 0
  · simp only [if_pos used]
    decide
  · simp only [if_neg used, reads old held (Int.not_lt.mp used), revents]
    cases (conditions old.fd).readable <;> cases (conditions old.fd).writable <;>
      cases (conditions old.fd).error <;> cases (conditions old.fd).hangUp <;> decide

/-- So a slot is never served as writable. -/
theorem Quiet.next (quiet : set.Quiet) {batch later : Nat × Nat} {fd : Int}
    {readable writable : Bool}
    (comes : pollBackend.next set batch = some (.activate fd readable writable, later)) :
    writable = false := by
  simp only [pollBackend] at comes
  split at comes
  · cases comes
  split at comes
  · cases comes
  case h_2 pollfd found =>
    split at comes
    · cases comes
    case isFalse =>
      split at comes
      · cases comes
        simp [quiet pollfd (List.mem_of_getElem? found)]
      · cases comes

end PollSet

end Slots

section Loop

variable {dispatch later : Dispatch PollSet} {running after : Running PollSet (Nat × Nat)}
  {own : Nat} {channel : App.Channel} {fd : Int}

theorem doChannelEvent_returns {element : Element} (empty : dispatch.pending = [])
    (taken : dispatch.doChannelEvent pollDispatcher element = .ok later) :
    ∃ loop, Dispatch.handlePending pollDispatcher dispatch.toEventLoop element = .ok loop ∧
      later = { dispatch with
        toEventLoop := loop
        pending := [] } := by
  unfold Dispatch.doChannelEvent Dispatch.handlePendingChannel at taken
  rw [empty, List.nil_append] at taken
  obtain ⟨loop, handled, same⟩ := bind_eq_ok.mp taken
  obtain ⟨other, first, last⟩ := bind_eq_ok.mp handled
  cases last
  cases same
  exact ⟨loop, first, rfl⟩

/-- What has become of the loop, as far as the server relies on it. -/
structure Changed (dispatch later : Dispatch PollSet) (lookup : Nat → Option Nat) : Prop where
  channels : later.channels = dispatch.channels
  pending : later.pending = []
  lookup : later.channelMap.lookup = lookup
  reads : dispatch.dispatcherData.Reads →
    (∀ channel ∈ dispatch.channels, channel.events = App.eventRead) → later.dispatcherData.Reads
  quiet : dispatch.dispatcherData.Quiet → later.dispatcherData.Quiet

theorem Changed.refl (empty : dispatch.pending = []) :
    Changed dispatch dispatch dispatch.channelMap.lookup :=
  ⟨rfl, empty, rfl, fun reads _ => reads, id⟩

theorem makeSpace_given {map : ChannelMap} {slot : Nat} : map.makeSpace slot true ≠ .ok none := by
  intro refused
  unfold ChannelMap.makeSpace at refused
  split at refused
  · obtain ⟨nentries, _, rest⟩ := bind_eq_ok.mp refused
    split at rest
    · cases rest
    · cases rest
  · cases refused

/-- Only a channel without a descriptor is left out when there is memory for the table. -/
theorem handlePendingAdd_given {loop next : EventLoop PollSet} {code : Int}
    (taken : loop.handlePendingAdd pollDispatcher true fd own = .ok (code, next))
    (same : next = loop) (beyond : 0 ≤ fd → loop.channelMap.nentries ≤ fd) : fd < 0 := by
  by_contra positive
  unfold EventLoop.handlePendingAdd at taken
  rw [if_neg positive, if_pos (beyond (Int.not_lt.mp positive))] at taken
  obtain ⟨space, made, taken⟩ := bind_eq_ok.mp taken
  cases space with
  | none => exact makeSpace_given made
  | some map =>
    obtain ⟨_, _, inside⟩ := ChannelMap.makeSpace_some made
    have small := beyond (Int.not_lt.mp positive)
    obtain ⟨entry, _, taken⟩ := bind_eq_ok.mp taken
    have size : next.channelMap.nentries = map.nentries := by
      cases entry with
      | some number =>
        cases taken
        rfl
      | none =>
        obtain ⟨added, _, taken⟩ := bind_eq_ok.mp taken
        obtain ⟨⟨code, data⟩, _, taken⟩ := bind_eq_ok.mp taken
        cases taken
        exact ChannelMap.nentries_write ..
    rw [same] at size
    omega

/-- An addition that returns has made an entry, if the channel has a descriptor without one. -/
theorem add_changed (empty : dispatch.pending = []) (found : dispatch.channels[own]? = some channel)
    (taken : dispatch.doChannelEvent pollDispatcher (.add own true) = .ok later) :
    Changed dispatch later (if 0 ≤ channel.fd ∧ dispatch.channelMap.lookup channel.fd.toNat = none
      then Function.update dispatch.channelMap.lookup channel.fd.toNat (some own)
      else dispatch.channelMap.lookup) := by
  obtain ⟨loop, handled, rfl⟩ := doChannelEvent_returns empty taken
  obtain ⟨added, known, handled⟩ := bind_eq_ok.mp handled
  cases found.symm.trans (EventLoop.channelAt_eq_ok.mp known)
  obtain ⟨⟨code, next⟩, handled, same⟩ := bind_eq_ok.mp handled
  cases same
  rcases EventLoop.handlePendingAdd_cases handled with ⟨same, beyond⟩ |
    ⟨map, positive, same, _, inside, ⟨held, rfl⟩ | ⟨free, other, code, data, known, made, rfl⟩⟩
  · have negative := handlePendingAdd_given handled same beyond
    subst same
    refine ⟨rfl, rfl, ?_, fun reads _ => reads, id⟩
    rw [if_neg fun both => by omega]
  · refine ⟨rfl, rfl, ?_, fun reads _ => reads, id⟩
    rw [if_neg fun both => held both.2]
    exact same
  · cases made
    cases found.symm.trans known
    refine ⟨rfl, rfl, ?_, fun reads asks => ?_, fun quiet => quiet.add _⟩
    · rw [if_pos ⟨positive, free⟩]
      exact (ChannelMap.lookup_write (by omega) _).trans (by rw [same])
    · exact reads.add (asks _ (List.mem_of_getElem? known))

/-- A removal empties the entry of the channel. -/
theorem remove_changed (empty : dispatch.pending = []) (positive : 0 ≤ fd)
    (entry : dispatch.channelMap.lookup fd.toNat = some own)
    (found : dispatch.channels[own]? = some channel) (place : channel.fd = fd)
    (taken : dispatch.doChannelEvent pollDispatcher (.remove own) = .ok later) :
    Changed dispatch later (Function.update dispatch.channelMap.lookup fd.toNat none) := by
  obtain ⟨loop, handled, rfl⟩ := doChannelEvent_returns empty taken
  obtain ⟨removed, known, handled⟩ := bind_eq_ok.mp handled
  cases found.symm.trans (EventLoop.channelAt_eq_ok.mp known)
  obtain ⟨⟨code, next⟩, handled, same⟩ := bind_eq_ok.mp handled
  cases same
  subst place
  have inside := ChannelMap.lt_of_lookup (by rw [entry]; exact Option.some_ne_none own)
  rcases EventLoop.handlePendingRemove_cases handled with ⟨same, beyond⟩ |
    ⟨number, mapped, code, data, _, _, held, known, deleted, rfl⟩
  · have small := beyond positive
    omega
  · cases deleted
    refine ⟨rfl, rfl, ?_, fun reads _ => reads.del _, fun quiet => quiet.del _⟩
    exact ChannelMap.lookup_write inside none

/-- `poll_dispatch` calls nothing but the read callback of the channel. -/
theorem serve_returns {batch rest : Nat × Nat} {readable : Bool} {reads writes : List Effect}
    (left : running.batch = some batch)
    (comes : pollBackend.next running.dispatch.dispatcherData batch =
      some (.activate fd readable false, rest))
    (positive : 0 ≤ fd) (entry : running.dispatch.channelMap.lookup fd.toNat = some own)
    (found : running.dispatch.channels[own]? = some channel) (place : channel.fd = fd)
    (called : channel.eventReadCallback.isSome = true)
    (taken : running.step pollBackend (.serve reads writes) = .ok after) :
    after.batch = some rest ∧
      (readable = false ∧ after.dispatch = running.dispatch ∨
        readable = true ∧ Dispatch.performAll pollDispatcher own
          (running.dispatch.record fd App.eventRead) reads = .ok after.dispatch) := by
  simp only [Running.step, left] at taken
  obtain ⟨⟨dispatch, later⟩, serves, same⟩ := bind_eq_ok.mp taken
  cases same
  simp only [Running.serve, comes] at serves
  obtain ⟨served, activates, same⟩ := bind_eq_ok.mp serves
  cases same
  refine ⟨rfl, ?_⟩
  unfold Dispatch.activateReady at activates
  obtain ⟨middle, first, last⟩ := bind_eq_ok.mp activates
  cases last
  cases readable with
  | false =>
    cases first
    exact .inl ⟨rfl, rfl⟩
  | true =>
    have activated : Dispatch.channelEventActivate pollDispatcher reads writes running.dispatch fd
        App.eventRead = .ok dispatch := first
    rw [Dispatch.activate_read positive entry found place, if_pos called] at activated
    exact .inr ⟨rfl, activated⟩

/-- One effect of a callback is one event of the channel. -/
theorem performAll_single {effect : Effect} (success : Dispatch.performAll pollDispatcher own
    dispatch [effect] = .ok later) : dispatch.perform pollDispatcher own effect = .ok later := by
  obtain ⟨middle, first, last⟩ := bind_eq_ok.mp success
  cases last
  exact first

end Loop

namespace HttpSite

variable {strncmp : Bytes → Bytes → Int} {fuel : Nat} {site next : HttpSite}

/-- `accept` returns a descriptor that no channel has, as the server closes none, and `realloc`
finds the memory for the table. -/
def Fresh (site : HttpSite) : SiteEvent → Prop
  | .register _ memory => memory = true
  | .serve meeting => meeting.memory = true ∧ ∀ fd ∈ meeting.accepted,
      ∀ channel ∈ site.running.dispatch.channels, channel.fd ≠ fd
  | _ => True

instance (site : HttpSite) : ∀ event, Decidable (site.Fresh event)
  | .register _ memory => inferInstanceAs (Decidable (memory = true))
  | .poll _ => .isTrue trivial
  | .serve meeting => inferInstanceAs (Decidable (meeting.memory = true ∧
      ∀ fd ∈ meeting.accepted, ∀ channel ∈ site.running.dispatch.channels, channel.fd ≠ fd))
  | .handlePending => .isTrue trivial

/-- The channels are those of the connections, no two of one descriptor, and each connection is
where the events of its descriptor bring it. -/
structure Ordered (strncmp : Bytes → Bytes → Int) (fuel : Nat) (site : HttpSite) : Prop where
  kept : Kept pollLawful site.running.dispatch.toEventLoop
  empty : site.running.dispatch.pending = []
  channels : ∃ wakeup listening, site.running.dispatch.channels =
    wakeup :: listening :: site.connections.map fun connection => connection.chan
  reading : ∀ channel ∈ site.running.dispatch.channels,
    channel.events = App.eventRead ∧ channel.eventReadCallback.isSome = true
  apart : ∀ {first second : Nat} {one other : App.Channel},
    site.running.dispatch.channels[first]? = some one →
    site.running.dispatch.channels[second]? = some other → 0 ≤ one.fd → one.fd = other.fd →
    first = second
  reads : site.running.dispatch.dispatcherData.Reads
  quiet : site.running.batch ≠ none → site.running.dispatch.dispatcherData.Quiet
  replayed : ∀ index connection, site.connections[index]? = some connection →
    0 ≤ connection.chan.fd → run (httpStep strncmp fuel)
      (.established (index + 2) connection.chan.fd) (site.log connection.chan.fd) = .ok connection
  unlogged : ∀ fd, (∀ channel ∈ site.running.dispatch.channels, channel.fd ≠ fd) →
    site.log fd = []

/-- Moreover the open connections are those with an entry in the table. -/
structure Tidy (strncmp : Bytes → Bytes → Int) (fuel : Nat) (site : HttpSite) : Prop
    extends Ordered strncmp fuel site where
  opened : ∀ index connection, site.connections[index]? = some connection →
    0 ≤ connection.chan.fd →
      (site.running.dispatch.channelMap.lookup connection.chan.fd.toNat = some (index + 2) ↔
        connection.watched = true)

theorem Ordered.following (ordered : site.Ordered strncmp fuel) :
    Following pollLawful site.running := by
  refine ⟨ordered.kept, ?_, fun _ _ => trivial, fun _ _ fd asks => ordered.kept.entered fd asks⟩
  rw [ordered.empty]
  exact nofun

theorem Ordered.channel_at (ordered : site.Ordered strncmp fuel) (index : Nat) :
    site.running.dispatch.channels[index + 2]? =
      site.connections[index]?.map fun connection => connection.chan := by
  obtain ⟨wakeup, listening, shape⟩ := ordered.channels
  rw [shape, List.getElem?_cons_succ, List.getElem?_cons_succ, List.getElem?_map]

theorem Ordered.connection_at (ordered : site.Ordered strncmp fuel) {index : Nat}
    {channel : App.Channel} (found : site.running.dispatch.channels[index + 2]? = some channel) :
    ∃ connection, site.connections[index]? = some connection ∧ connection.chan = channel := by
  have mine := ordered.channel_at index
  rw [found] at mine
  exact Option.map_eq_some_iff.mp mine.symm

/-- The loop has gone on without new channels. -/
theorem Ordered.loop (ordered : site.Ordered strncmp fuel) {running : Running PollSet (Nat × Nat)}
    {lookup : Nat → Option Nat} (kept : Kept pollLawful running.dispatch.toEventLoop)
    (changed : Changed site.running.dispatch running.dispatch lookup)
    (batch : running.batch ≠ none → site.running.batch ≠ none) :
    Ordered strncmp fuel { site with running } where
  kept := kept
  empty := changed.pending
  channels := by
    obtain ⟨wakeup, listening, shape⟩ := ordered.channels
    exact ⟨wakeup, listening, changed.channels.trans shape⟩
  reading := by
    change ∀ channel ∈ running.dispatch.channels, _
    rw [changed.channels]
    exact ordered.reading
  apart := by
    intro first second one other there here
    change running.dispatch.channels[first]? = some one at there
    change running.dispatch.channels[second]? = some other at here
    rw [changed.channels] at there here
    exact ordered.apart there here
  reads := changed.reads ordered.reads fun channel member => (ordered.reading channel member).1
  quiet := fun left => changed.quiet (ordered.quiet (batch left))
  replayed := ordered.replayed
  unlogged := by
    intro fd free
    apply ordered.unlogged fd
    change ∀ channel ∈ running.dispatch.channels, channel.fd ≠ fd at free
    rwa [changed.channels] at free

/-- A reported descriptor has the channel in its entry. -/
theorem Ordered.entry (ordered : site.Ordered strncmp fuel) {batch rest : Nat × Nat} {fd : Int}
    {readable writable : Bool} (left : site.running.batch = some batch)
    (comes : pollBackend.next site.running.dispatch.dispatcherData batch =
      some (.activate fd readable writable, rest)) :
    writable = false ∧ 0 ≤ fd ∧ ∃ own channel,
      site.running.dispatch.channelMap.lookup fd.toNat = some own ∧
      site.running.dispatch.channels[own]? = some channel ∧ channel.fd = fd := by
  have waiting : site.running.batch ≠ none := by rw [left]; exact nofun
  obtain ⟨positive, held⟩ := ordered.following.asked left comes
  obtain ⟨own, entry⟩ := Option.ne_none_iff_exists'.mp held
  obtain ⟨channel, found, place⟩ := ordered.kept.known _ _ entry
  exact ⟨(ordered.quiet waiting).next comes, positive, own, channel, entry, found, by omega⟩

/-- The handler of the connection of a descriptor adds its event to those of the descriptor. -/
theorem Ordered.handle (ordered : site.Ordered strncmp fuel) {fd : Int} {index : Nat}
    {connection : HttpConnection} {event : HttpEvent} {effects : List Effect}
    (there : site.connections[index]? = some connection) (place : connection.chan.fd = fd)
    (positive : 0 ≤ fd) (success : site.handle strncmp fuel fd index event = .ok (next, effects)) :
    next.Ordered strncmp fuel ∧ next.running = site.running ∧ ∃ after : HttpConnection,
      next.connections = site.connections.set index after ∧ after.chan = connection.chan ∧
      (connection.watched = false → after.watched = false) ∧
      effects = if connection.watched && !after.watched then [.remove] else [] := by
  simp only [HttpSite.handle, there] at success
  obtain ⟨after, stepped, rest⟩ := bind_returns.mp success
  split at rest
  · cases rest
  case isFalse silent =>
    cases rest
    have chan := httpStep_chan stepped silent
    have inside := (List.getElem?_eq_some_iff.mp there).1
    have listed : (site.connections.set index after).map (fun connection => connection.chan) =
        site.connections.map fun connection => connection.chan := by
      rw [List.map_set, chan]
      apply List.ext_getElem?
      intro other
      by_cases same : index = other
      · subst same
        rw [List.getElem?_set_self (by rwa [List.length_map]), List.getElem?_map, there]
        rfl
      · rw [List.getElem?_set_ne same]
    refine ⟨⟨ordered.kept, ordered.empty, ?_, ordered.reading, ordered.apart, ordered.reads,
      ordered.quiet, ?_, ?_⟩, rfl, after, rfl, chan, ?_, rfl⟩
    · obtain ⟨wakeup, listening, shape⟩ := ordered.channels
      exact ⟨wakeup, listening, shape.trans (by rw [listed])⟩
    · intro other found at_ known
      by_cases same : index = other
      · subst same
        rw [List.getElem?_set_self inside] at at_
        cases at_
        rw [chan, place]
        change run _ _ (Function.update site.log fd (site.log fd ++ [event]) fd) = _
        rw [Function.update_self]
        have before := ordered.replayed index connection there (by omega)
        rw [place] at before
        exact (run_append_of_ok before [event]).trans (run_cons stepped [])
      · rw [List.getElem?_set_ne same] at at_
        have differs : found.chan.fd ≠ fd := by
          intro shared
          have mine := ordered.channel_at other
          have its := ordered.channel_at index
          rw [at_, Option.map_some] at mine
          rw [there, Option.map_some] at its
          have equal := ordered.apart mine its known (shared.trans place.symm)
          omega
        change run _ _ (Function.update site.log fd _ found.chan.fd) = _
        rw [Function.update_of_ne differs]
        exact ordered.replayed other found at_ known
    · intro asked free
      have differs : asked ≠ fd := by
        rintro rfl
        have its := ordered.channel_at index
        rw [there, Option.map_some] at its
        exact free _ (List.mem_of_getElem? its) place
      change Function.update site.log fd _ asked = []
      rw [Function.update_of_ne differs]
      exact ordered.unlogged asked free
    · intro closed
      simp only [httpStep, closed] at stepped
      cases stepped
      exact closed

theorem getElem?_concat_cases {Item : Type} {items : List Item} {last item : Item} {index : Nat}
    (found : (items ++ [last])[index]? = some item) :
    items[index]? = some item ∨ index = items.length ∧ item = last := by
  by_cases inside : index < items.length
  · rw [List.getElem?_append_left inside] at found
    exact .inl found
  · rw [List.getElem?_append_right (Nat.not_lt.mp inside)] at found
    obtain ⟨within, same⟩ := List.getElem?_eq_some_iff.mp found
    have place : index = items.length := by
      rw [List.length_singleton] at within
      omega
    subst place
    exact .inr ⟨rfl, by simpa using same.symm⟩

/-- A new connection has a channel of its own, and nothing has happened to it. -/
theorem Ordered.accept (ordered : site.Ordered strncmp fuel) {meeting : Meeting}
    (fresh : ∀ fd, meeting.accepted = some fd →
      ∀ channel ∈ site.running.dispatch.channels, channel.fd ≠ fd) :
    (site.accept meeting).1.Ordered strncmp fuel ∧
      ∃ connection : HttpConnection, connection.watched = true ∧
        (site.accept meeting).1.connections = site.connections ++ [connection] ∧
        (site.accept meeting).1.running.dispatch.channels[site.connections.length + 2]? =
          some connection.chan ∧
        (0 ≤ connection.chan.fd → ∀ channel ∈ site.running.dispatch.channels,
          channel.fd ≠ connection.chan.fd) := by
  obtain ⟨wakeup, listening, shape⟩ := ordered.channels
  have size : site.running.dispatch.channels.length = site.connections.length + 2 := by
    rw [shape, List.length_cons, List.length_cons, List.length_map]
  generalize named : (match meeting.accepted with | some fd => (fd : Int) | none => -1) =
    connectedFd
  have alone : 0 ≤ connectedFd → ∀ channel ∈ site.running.dispatch.channels,
      channel.fd ≠ connectedFd := by
    intro positive
    cases given : meeting.accepted with
    | none =>
      rw [given] at named
      exact absurd positive (by rw [← named]; decide)
    | some fd =>
      rw [given] at named
      subst named
      exact fresh fd given
  have added : (site.accept meeting).1 = { site with
      running := { site.running with dispatch := { site.running.dispatch with
        channels := site.running.dispatch.channels ++
          [App.connectionChannel (site.connections.length + 2) connectedFd] } }
      connections := site.connections ++
        [.established (site.connections.length + 2) connectedFd] } := by
    subst named
    rfl
  rw [added]
  refine ⟨⟨⟨ordered.kept.valid, ordered.kept.entered, ?_⟩, ordered.empty, ?_, ?_, ?_,
    ordered.reads, ordered.quiet, ?_, ?_⟩, .established (site.connections.length + 2) connectedFd,
    rfl, rfl, ?_, alone⟩
  · intro fd number entry
    obtain ⟨channel, found, place⟩ := ordered.kept.known fd number entry
    exact ⟨channel, (List.getElem?_append_left (List.getElem?_eq_some_iff.mp found).1).trans found,
      place⟩
  · refine ⟨wakeup, listening, ?_⟩
    rw [shape, List.map_append]
    rfl
  · intro channel member
    rcases List.mem_append.mp member with old | new
    · exact ordered.reading channel old
    · rw [List.mem_singleton.mp new]
      exact ⟨rfl, rfl⟩
  · intro first second one other there here known shared
    rcases getElem?_concat_cases there with old | ⟨rfl, rfl⟩
    · rcases getElem?_concat_cases here with same | ⟨rfl, rfl⟩
      · exact ordered.apart old same known shared
      · have equal : one.fd = connectedFd := shared
        exact absurd equal (alone (by omega) one (List.mem_of_getElem? old))
    · rcases getElem?_concat_cases here with old | ⟨rfl, rfl⟩
      · exact absurd shared.symm (alone known other (List.mem_of_getElem? old))
      · rfl
  · intro index connection found known
    rcases getElem?_concat_cases found with old | ⟨rfl, rfl⟩
    · exact ordered.replayed index connection old known
    · have quiet : site.log connectedFd = [] := ordered.unlogged _ (alone known)
      change run _ _ (site.log connectedFd) = _
      rw [quiet]
      rfl
  · intro fd free
    apply ordered.unlogged
    exact fun channel member => free channel (List.mem_append_left _ member)
  · rw [← size]
    exact List.getElem?_concat_length

/-- An entry of the table that is none of a connection's. -/
theorem Tidy.elsewhere (tidy : site.Tidy strncmp fuel) {own : Nat} {channel : App.Channel}
    (found : site.running.dispatch.channels[own]? = some channel) {index : Nat}
    {connection : HttpConnection} (there : site.connections[index]? = some connection)
    (known : 0 ≤ connection.chan.fd) (other : own ≠ index + 2) :
    connection.chan.fd ≠ channel.fd := by
  intro shared
  have its := tidy.channel_at index
  rw [there, Option.map_some] at its
  exact other (tidy.apart its found known shared).symm

/-- A step of the loop alone changes no entry of a connection. -/
theorem Tidy.loop (tidy : site.Tidy strncmp fuel) {running : Running PollSet (Nat × Nat)}
    {lookup : Nat → Option Nat} (kept : Kept pollLawful running.dispatch.toEventLoop)
    (changed : Changed site.running.dispatch running.dispatch lookup)
    (batch : running.batch ≠ none → site.running.batch ≠ none)
    (same : ∀ (index : Nat) (connection : HttpConnection), site.connections[index]? =
      some connection → 0 ≤ connection.chan.fd → lookup connection.chan.fd.toNat =
        site.running.dispatch.channelMap.lookup connection.chan.fd.toNat) :
    Tidy strncmp fuel { site with running } := by
  refine ⟨tidy.toOrdered.loop kept changed batch, ?_⟩
  intro index connection there known
  change running.dispatch.channelMap.lookup _ = _ ↔ _
  rw [changed.lookup, same index connection there known]
  exact tidy.opened index connection there known

theorem Tidy.register (tidy : site.Tidy strncmp fuel) {channel : Fin 2}
    (success : siteStep strncmp fuel site (.register channel true) = .ok next) :
    next.Tidy strncmp fuel := by
  obtain ⟨dispatch, added, same⟩ := bind_returns.mp success
  cases same
  have taken := mapError_returns.mp added
  obtain ⟨wakeup, listening, shape⟩ := tidy.channels
  obtain ⟨mine, found⟩ : ∃ mine, site.running.dispatch.channels[(channel : Nat)]? = some mine := by
    rw [shape]
    have small := channel.isLt
    exact ⟨_, List.getElem?_eq_getElem (by simp; omega)⟩
  apply @Tidy.loop strncmp fuel site tidy { site.running with dispatch } _
    (doChannelEvent_outcome tidy.kept taken).1.kept (add_changed tidy.empty found taken) id
  intro index connection there known
  split
  case isTrue positive =>
    have apart := tidy.elsewhere found there known (by have small := channel.isLt; omega)
    rw [Function.update_of_ne (by omega)]
  case isFalse => rfl

theorem Tidy.advance (tidy : site.Tidy strncmp fuel)
    {event : LoopEvent PollSet (Int → Conditions)} {running : Running PollSet (Nat × Nat)}
    (taken : site.running.step pollBackend event = .ok running)
    (changed : Changed site.running.dispatch running.dispatch
      site.running.dispatch.channelMap.lookup)
    (batch : running.batch ≠ none → site.running.batch ≠ none) :
    Tidy strncmp fuel { site with running } :=
  tidy.loop (tidy.following.step taken).1.kept changed batch fun _ _ _ _ => rfl

theorem advance_returns {event : LoopEvent PollSet (Int → Conditions)}
    (success : site.advance event = .ok next) :
    ∃ running, site.running.step pollBackend event = .ok running ∧
      next = { site with running } := by
  obtain ⟨running, taken, same⟩ := bind_returns.mp success
  cases same
  exact ⟨running, mapError_returns.mp taken, rfl⟩

theorem Tidy.poll (tidy : site.Tidy strncmp fuel) {conditions : Int → Conditions}
    (success : siteStep strncmp fuel site (.poll conditions) = .ok next) :
    next.Tidy strncmp fuel := by
  obtain ⟨running, taken, rfl⟩ := advance_returns success
  have kept := (tidy.following.step taken).1.kept
  simp only [Running.step] at taken
  split at taken
  case h_1 data batch waiting reports =>
    cases taken
    cases reports
    exact ⟨⟨kept, tidy.empty, tidy.channels, tidy.reading, tidy.apart, tidy.reads.poll conditions,
      fun _ => tidy.reads.quiet conditions, tidy.replayed, tidy.unlogged⟩, tidy.opened⟩
  case h_2 =>
    cases taken
    exact tidy

theorem Tidy.handlePending (tidy : site.Tidy strncmp fuel)
    (success : siteStep strncmp fuel site .handlePending = .ok next) :
    next.Tidy strncmp fuel := by
  obtain ⟨running, taken, rfl⟩ := advance_returns success
  have whole := taken
  simp only [Running.step] at taken
  split at taken
  case isTrue =>
    obtain ⟨dispatch, handled, same⟩ := bind_eq_ok.mp taken
    cases same
    unfold Dispatch.handlePendingChannel at handled
    rw [tidy.empty] at handled
    obtain ⟨loop, all, same⟩ := bind_eq_ok.mp handled
    cases all
    cases same
    exact tidy.advance whole ⟨rfl, rfl, rfl, fun reads _ => reads, id⟩ fun left => absurd rfl left
  case isFalse =>
    cases taken
    exact tidy

/-- A slot that is passed over changes nothing but the place in the array. -/
theorem Tidy.pass (tidy : site.Tidy strncmp fuel)
    (none : ∀ fd readable writable rest, site.running.batch.bind
      (pollBackend.next site.running.dispatch.dispatcherData) ≠
        some (.activate fd readable writable, rest))
    (success : site.advance (.serve [] []) = .ok next) : next.Tidy strncmp fuel := by
  obtain ⟨running, taken, rfl⟩ := advance_returns success
  have whole := taken
  have unchanged : Changed site.running.dispatch site.running.dispatch
      site.running.dispatch.channelMap.lookup := .refl tidy.empty
  simp only [Running.step] at taken
  split at taken
  case h_1 =>
    cases taken
    exact tidy
  case h_2 batch left =>
    have waiting : site.running.batch ≠ Option.none := by rw [left]; exact Option.some_ne_none _
    obtain ⟨⟨dispatch, rest⟩, serves, same⟩ := bind_eq_ok.mp taken
    cases same
    unfold Running.serve at serves
    split at serves
    · cases serves
      exact tidy.advance whole unchanged fun _ => waiting
    · cases serves
      exact tidy.advance whole unchanged fun _ => waiting
    · cases serves
      exact tidy.advance whole ⟨unchanged.channels, unchanged.pending, unchanged.lookup,
        unchanged.reads, unchanged.quiet⟩ fun _ => waiting
    case h_4 comes => exact absurd (by rw [left]; exact comes) (none _ _ _ _)

section Served

variable {batch rest : Nat × Nat} {fd : Int} {own : Nat} {channel : App.Channel}
  {running : Running PollSet (Nat × Nat)} {reads : List Effect}

/-- What a served slot leads to, when its channel has been found. -/
theorem Ordered.served (ordered : site.Ordered strncmp fuel)
    (left : site.running.batch = some batch)
    (comes : pollBackend.next site.running.dispatch.dispatcherData batch =
      some (.activate fd true false, rest)) (positive : 0 ≤ fd)
    (entry : site.running.dispatch.channelMap.lookup fd.toNat = some own)
    (found : site.running.dispatch.channels[own]? = some channel) (place : channel.fd = fd)
    (taken : site.running.step pollBackend (.serve reads []) = .ok running) :
    Kept pollLawful running.dispatch.toEventLoop ∧
      (running.batch ≠ none → site.running.batch ≠ none) ∧
      Dispatch.performAll pollDispatcher own (site.running.dispatch.record fd App.eventRead) reads =
        .ok running.dispatch := by
  have called := (ordered.reading channel (List.mem_of_getElem? found)).2
  obtain ⟨_, result⟩ := serve_returns left comes positive entry found place called taken
  refine ⟨(ordered.following.step taken).1.kept, fun _ => by rw [left]; exact nofun, ?_⟩
  rcases result with ⟨unread, _⟩ | ⟨_, performed⟩
  · cases unread
  · exact performed

theorem Tidy.serve_connection (tidy : site.Tidy strncmp fuel) {index : Nat} {event : HttpEvent}
    {effects : List Effect} {middle : HttpSite} (left : site.running.batch = some batch)
    (comes : pollBackend.next site.running.dispatch.dispatcherData batch =
      some (.activate fd true false, rest)) (positive : 0 ≤ fd)
    (entry : site.running.dispatch.channelMap.lookup fd.toNat = some (index + 2))
    (found : site.running.dispatch.channels[index + 2]? = some channel) (place : channel.fd = fd)
    (handled : site.handle strncmp fuel fd index event = .ok (middle, effects))
    (success : middle.advance (.serve effects []) = .ok next) : next.Tidy strncmp fuel := by
  obtain ⟨connection, there, chan⟩ := tidy.connection_at found
  have named : connection.chan.fd = fd := (congrArg App.Channel.fd chan).trans place
  have inside := (List.getElem?_eq_some_iff.mp there).1
  obtain ⟨ordered, loop, after, listed, kept, _, does⟩ :=
    tidy.toOrdered.handle there named positive handled
  obtain ⟨running, taken, rfl⟩ := advance_returns success
  rw [loop] at taken
  obtain ⟨keeps, batch, performed⟩ :=
    tidy.toOrdered.served left comes positive entry found place taken
  have watched : connection.watched = true :=
    (tidy.opened index connection there (by omega)).mp (by rw [named]; exact entry)
  have others {other : Nat} {second : HttpConnection} (differs : index ≠ other)
      (at_ : site.connections[other]? = some second) (known : 0 ≤ second.chan.fd) :
      second.chan.fd.toNat ≠ fd.toNat := by
    have apart := tidy.elsewhere found at_ known (by omega)
    omega
  cases closes : after.watched with
  | true =>
    rw [watched, closes] at does
    simp only [Bool.not_true, Bool.and_false, Bool.false_eq_true, if_false] at does
    subst does
    have same : site.running.dispatch.record fd App.eventRead = running.dispatch :=
      Except.ok.inj performed
    have changed : Changed middle.running.dispatch running.dispatch
        site.running.dispatch.channelMap.lookup := by
      rw [loop, ← same]
      exact ⟨rfl, tidy.empty, rfl, fun reads _ => reads, id⟩
    refine ⟨ordered.loop keeps changed (by rw [loop]; exact batch), ?_⟩
    intro other second at_ known
    change running.dispatch.channelMap.lookup _ = _ ↔ _
    change middle.connections[other]? = some second at at_
    rw [changed.lookup]
    rw [listed] at at_
    by_cases differs : index = other
    · subst differs
      rw [List.getElem?_set_self inside] at at_
      cases at_
      rw [kept, named, entry, closes]
      simp
    · rw [List.getElem?_set_ne differs] at at_
      exact tidy.opened other second at_ known
  | false =>
    rw [watched, closes] at does
    simp only [Bool.not_false, Bool.and_self, if_true] at does
    subst does
    have removed := remove_changed (by exact tidy.empty) positive (by exact entry) (by exact found)
      place (performAll_single performed)
    have changed : Changed middle.running.dispatch running.dispatch
        (Function.update site.running.dispatch.channelMap.lookup fd.toNat none) := by
      rw [loop]
      exact ⟨removed.channels, removed.pending, removed.lookup, removed.reads, removed.quiet⟩
    refine ⟨ordered.loop keeps changed (by rw [loop]; exact batch), ?_⟩
    intro other second at_ known
    change running.dispatch.channelMap.lookup _ = _ ↔ _
    change middle.connections[other]? = some second at at_
    rw [changed.lookup]
    rw [listed] at at_
    by_cases differs : index = other
    · subst differs
      rw [List.getElem?_set_self inside] at at_
      cases at_
      rw [kept, named, Function.update_self, closes]
      simp
    · rw [List.getElem?_set_ne differs] at at_
      rw [Function.update_of_ne (others differs at_ known)]
      exact tidy.opened other second at_ known

/-- `handleWakeup` changes nothing, nor does a slot that `poll` has not marked. -/
theorem Tidy.serve_silent (tidy : site.Tidy strncmp fuel) (left : site.running.batch = some batch)
    (taken : site.running.step pollBackend (.serve [] []) = .ok running)
    (same : running.dispatch = site.running.dispatch ∨
      ∃ fd, running.dispatch = site.running.dispatch.record fd App.eventRead) :
    Tidy strncmp fuel { site with running } := by
  refine tidy.advance taken ?_ fun _ => by rw [left]; exact nofun
  rcases same with same | ⟨fd, same⟩
  · rw [same]
    exact .refl tidy.empty
  · rw [same]
    exact ⟨rfl, tidy.empty, rfl, fun reads _ => reads, id⟩

/-- The channel of a new connection gets its entry, and no other entry changes. -/
theorem Tidy.serve_listener (tidy : site.Tidy strncmp fuel) {meeting : Meeting}
    (fresh : site.Fresh (.serve meeting)) (left : site.running.batch = some batch)
    (comes : pollBackend.next site.running.dispatch.dispatcherData batch =
      some (.activate fd true false, rest)) (positive : 0 ≤ fd)
    (entry : site.running.dispatch.channelMap.lookup fd.toNat = some 1)
    (found : site.running.dispatch.channels[1]? = some channel) (place : channel.fd = fd)
    (success : (site.accept meeting).1.advance (.serve (site.accept meeting).2 []) = .ok next) :
    next.Tidy strncmp fuel := by
  obtain ⟨ordered, connection, watched, listed, last, alone⟩ := tidy.toOrdered.accept fresh.2
  obtain ⟨running, taken, rfl⟩ := advance_returns success
  have inside := (List.getElem?_eq_some_iff.mp found).1
  have still : (site.accept meeting).1.running.dispatch.channels[1]? = some channel :=
    (List.getElem?_append_left inside).trans found
  obtain ⟨keeps, batch, performed⟩ :=
    ordered.served left comes positive entry still place taken
  have effect : (site.accept meeting).2 = [.add (site.connections.length + 2) true] := by
    rw [← fresh.1]
    rfl
  rw [effect] at performed
  have added := add_changed (by exact ordered.empty) (by exact last) (performAll_single performed)
  have changed : Changed (site.accept meeting).1.running.dispatch running.dispatch _ :=
    ⟨added.channels, added.pending, added.lookup, added.reads, added.quiet⟩
  have free (known : 0 ≤ connection.chan.fd) :
      site.running.dispatch.channelMap.lookup connection.chan.fd.toNat = none := by
    by_contra held
    obtain ⟨own, its⟩ := Option.ne_none_iff_exists'.mp held
    obtain ⟨other, there, equal⟩ := tidy.kept.known _ _ its
    exact alone known other (List.mem_of_getElem? there) (by omega)
  refine ⟨ordered.loop keeps changed batch, ?_⟩
  intro index second there known
  change running.dispatch.channelMap.lookup _ = _ ↔ _
  change (site.accept meeting).1.connections[index]? = some second at there
  have lookup := added.lookup
  rw [listed] at there
  rcases getElem?_concat_cases there with old | ⟨rfl, rfl⟩
  · have own := tidy.channel_at index
    rw [old, Option.map_some] at own
    have same : running.dispatch.channelMap.lookup second.chan.fd.toNat =
        site.running.dispatch.channelMap.lookup second.chan.fd.toNat := by
      by_cases given : 0 ≤ connection.chan.fd
      · have apart := alone given _ (List.mem_of_getElem? own)
        rw [lookup, if_pos ⟨given, free given⟩, Function.update_of_ne (by omega)]
        rfl
      · rw [lookup, if_neg fun both => given both.1]
        rfl
    rw [same]
    exact tidy.opened index second old known
  · rw [lookup, if_pos ⟨known, free known⟩, Function.update_self, watched]
    simp

theorem Tidy.serve (tidy : site.Tidy strncmp fuel) {meeting : Meeting}
    (fresh : site.Fresh (.serve meeting))
    (success : siteStep strncmp fuel site (.serve meeting) = .ok next) :
    next.Tidy strncmp fuel := by
  simp only [siteStep] at success
  split at success
  case h_2 none => exact tidy.pass (fun _ _ _ _ => none _ _ _ _) success
  case h_1 fd readable writable rest comes =>
    obtain ⟨batch, left, comes⟩ := Option.bind_eq_some_iff.mp comes
    obtain ⟨rfl, positive, own, channel, entry, found, place⟩ := tidy.toOrdered.entry left comes
    have called := (tidy.reading channel (List.mem_of_getElem? found)).2
    obtain ⟨⟨middle, reads⟩, callback, writing⟩ := bind_returns.mp success
    obtain ⟨⟨last, writes⟩, unwritten, advances⟩ := bind_returns.mp writing
    cases unwritten
    cases readable with
    | false =>
      cases callback
      obtain ⟨running, taken, rfl⟩ := advance_returns advances
      obtain ⟨_, ⟨_, same⟩ | ⟨readable, _⟩⟩ :=
        serve_returns left comes positive entry found place called taken
      · exact tidy.serve_silent left taken (.inl same)
      · cases readable
    | true =>
      simp only [if_true, readCallback, entry] at callback
      match own with
      | 0 =>
        cases callback
        obtain ⟨running, taken, rfl⟩ := advance_returns advances
        obtain ⟨_, _, performed⟩ :=
          tidy.toOrdered.served left comes positive entry found place taken
        exact tidy.serve_silent left taken (.inr ⟨fd, (Except.ok.inj performed).symm⟩)
      | 1 =>
        cases callback
        exact tidy.serve_listener fresh left comes positive entry found place advances
      | index + 2 =>
        exact tidy.serve_connection left comes positive entry found place callback advances

end Served

/-- A step keeps the order. -/
theorem Tidy.step (tidy : site.Tidy strncmp fuel) {event : SiteEvent} (fresh : site.Fresh event)
    (success : siteStep strncmp fuel site event = .ok next) : next.Tidy strncmp fuel := by
  cases event with
  | register channel memory =>
    obtain rfl : memory = true := fresh
    exact tidy.register success
  | poll conditions => exact tidy.poll success
  | serve meeting => exact tidy.serve fresh success
  | handlePending => exact tidy.handlePending success

theorem start_tidy (memory : PollSet) {wakeupFd listenFd : Nat} (apart : wakeupFd ≠ listenFd) :
    (start memory wakeupFd listenFd).Tidy strncmp fuel := by
  have single : pollLawful.valid (.init memory) := by simp [pollLawful]
  have unwatched (fd : Nat) : ¬ pollLawful.watched (.init memory) fd := by simp [pollLawful]
  have reading : ∀ channel ∈ [App.wakeupChannel 0 wakeupFd, App.listeningChannel 0 listenFd],
      channel.events = App.eventRead ∧ channel.eventReadCallback.isSome = true := by
    intro channel member
    rcases List.mem_pair.mp member with rfl | rfl
    · exact ⟨rfl, rfl⟩
    · exact ⟨rfl, rfl⟩
  have alone {first second : Nat} {one other : App.Channel}
      (there : [App.wakeupChannel 0 wakeupFd, App.listeningChannel 0 listenFd][first]? = some one)
      (here : [App.wakeupChannel 0 wakeupFd, App.listeningChannel 0 listenFd][second]? = some other)
      (shared : one.fd = other.fd) : first = second := by
    rcases first with _ | _ | _
    · rcases second with _ | _ | _
      · rfl
      · cases there
        cases here
        exact absurd (Int.ofNat.inj shared) apart
      · cases here
    · rcases second with _ | _ | _
      · cases there
        cases here
        exact absurd (Int.ofNat.inj shared).symm apart
      · rfl
      · cases here
    · cases there
  constructor
  · constructor
    case kept => exact (Following.start single unwatched _).kept
    case empty => rfl
    case channels => exact ⟨_, _, rfl⟩
    case reading => exact reading
    case apart => exact fun there here _ => alone there here
    case reads => exact PollSet.Reads.init memory
    case quiet => exact fun left => absurd rfl left
    case replayed => exact fun _ _ found => by cases found
    case unlogged => exact fun _ _ => rfl
  · exact fun _ _ found => by cases found

/-- A connection alone comes to the same stop, or to a call of
`event_loop_update_channel_event`. -/
def StopsAlone (strncmp : Bytes → Bytes → Int) (fuel : Nat) (stop : NoReturn) : Prop :=
  ∃ number fd events,
    run (httpStep strncmp fuel) (.established number fd) events = .error stop ∨
    ∃ connection, run (httpStep strncmp fuel) (.established number fd) events = .ok connection ∧
      connection.trace.any updates = true

/-- A stop that is not one of `channel_event_activate`, or that of a connection alone. -/
def MayStop (strncmp : Bytes → Bytes → Int) (fuel : Nat) (stop : NoReturn) : Prop :=
  (∃ inner, stop = .stopped inner ∧ Harmless inner) ∨ StopsAlone strncmp fuel stop

theorem stops_of_safe {Value Other : Type} {first : Except Stop Value}
    {next : Value → Except NoReturn Other} {stop : NoReturn} (safe : Safe first)
    (returns : ∀ value, ∃ result, next value = .ok result)
    (failure : (first.mapError .stopped >>= next) = .error stop) :
    ∃ inner, stop = .stopped inner ∧ Harmless inner := by
  cases first with
  | error inner =>
    cases failure
    exact ⟨inner, rfl, safe inner rfl⟩
  | ok value =>
    obtain ⟨result, returned⟩ := returns value
    exact absurd (returned.symm.trans failure) nofun

/-- The loop itself finds the channel of each descriptor. -/
theorem Ordered.advance_stops (ordered : site.Ordered strncmp fuel)
    {event : LoopEvent PollSet (Int → Conditions)} {stop : NoReturn}
    (failure : site.advance event = .error stop) :
    ∃ inner, stop = .stopped inner ∧ Harmless inner := by
  refine stops_of_safe (ordered.following.safe ?_) (fun running => ⟨_, rfl⟩) failure
  cases event with
  | serve reads writes =>
    intro batch fd later left comes
    exact absurd (ordered.entry left comes).1 nofun
  | _ => trivial

theorem Tidy.handle_stops (tidy : site.Tidy strncmp fuel) {fd : Int} {index : Nat}
    {channel : App.Channel} {event : HttpEvent} {stop : NoReturn}
    (found : site.running.dispatch.channels[index + 2]? = some channel) (place : channel.fd = fd)
    (positive : 0 ≤ fd) (failure : site.handle strncmp fuel fd index event = .error stop) :
    StopsAlone strncmp fuel stop := by
  obtain ⟨connection, there, chan⟩ := tidy.connection_at found
  have named : connection.chan.fd = fd := (congrArg App.Channel.fd chan).trans place
  have before := tidy.replayed index connection there (by omega)
  refine ⟨index + 2, connection.chan.fd, site.log connection.chan.fd ++ [event], ?_⟩
  rw [run_append_of_ok before]
  simp only [HttpSite.handle, there] at failure
  rcases bind_stops.mp failure with stepped | ⟨after, stepped, failed⟩
  · left
    simp only [run, stepped]
  · right
    refine ⟨after, run_cons stepped [], ?_⟩
    by_contra silent
    rw [if_neg silent] at failed
    cases failed

theorem Tidy.stops (tidy : site.Tidy strncmp fuel) {event : SiteEvent} (fresh : site.Fresh event)
    {stop : NoReturn} (failure : siteStep strncmp fuel site event = .error stop) :
    MayStop strncmp fuel stop := by
  cases event with
  | register channel memory =>
    exact .inl (stops_of_safe (Safe.handlePendingChannel pollLawful _) (fun _ => ⟨_, rfl⟩) failure)
  | poll conditions => exact .inl (tidy.advance_stops failure)
  | handlePending => exact .inl (tidy.advance_stops failure)
  | serve meeting =>
    simp only [siteStep] at failure
    split at failure
    case h_2 => exact .inl (tidy.advance_stops failure)
    case h_1 fd readable writable rest comes =>
      obtain ⟨batch, left, comes⟩ := Option.bind_eq_some_iff.mp comes
      obtain ⟨rfl, positive, own, channel, entry, found, place⟩ := tidy.toOrdered.entry left comes
      cases readable with
      | false => exact .inl (tidy.advance_stops failure)
      | true =>
        simp only [if_true, readCallback, entry] at failure
        match own with
        | 0 => exact .inl (tidy.advance_stops failure)
        | 1 => exact .inl ((tidy.toOrdered.accept fresh.2).1.advance_stops failure)
        | index + 2 =>
          rcases bind_stops.mp failure with callback | ⟨⟨middle, reads⟩, callback, failed⟩
          · exact .inr (tidy.handle_stops found place positive callback)
          · obtain ⟨connection, there, chan⟩ := tidy.connection_at found
            have named : connection.chan.fd = fd := (congrArg App.Channel.fd chan).trans place
            have ordered := (tidy.toOrdered.handle there named positive callback).1
            exact .inl (ordered.advance_stops failed)

/-- A reported descriptor is that of the wakeup, of the listening socket or of an open connection,
and it is not reported as writable. -/
theorem Tidy.reported (tidy : site.Tidy strncmp fuel) {batch rest : Nat × Nat} {fd : Int}
    {readable writable : Bool} (left : site.running.batch = some batch)
    (comes : pollBackend.next site.running.dispatch.dispatcherData batch =
      some (.activate fd readable writable, rest)) :
    writable = false ∧ (site.running.dispatch.channelMap.lookup fd.toNat = some 0 ∨
      site.running.dispatch.channelMap.lookup fd.toNat = some 1 ∨
      ∃ (index : Nat) (connection : HttpConnection),
        site.running.dispatch.channelMap.lookup fd.toNat = some (index + 2) ∧
        site.connections[index]? = some connection ∧ connection.chan.fd = fd ∧
        connection.watched = true) := by
  obtain ⟨unwritable, positive, own, channel, entry, found, place⟩ :=
    tidy.toOrdered.entry left comes
  refine ⟨unwritable, ?_⟩
  match own with
  | 0 => exact .inl entry
  | 1 => exact .inr (.inl entry)
  | index + 2 =>
    obtain ⟨connection, there, chan⟩ := tidy.connection_at found
    have named : connection.chan.fd = fd := (congrArg App.Channel.fd chan).trans place
    have watched : connection.watched = true :=
      (tidy.opened index connection there (by omega)).mp (by rw [named]; exact entry)
    exact .inr (.inr ⟨index, connection, entry, there, named, watched⟩)

/-- `poll` no longer asks about the descriptor of a closed connection. -/
theorem Tidy.forgotten (tidy : site.Tidy strncmp fuel) {index : Nat} {connection : HttpConnection}
    (there : site.connections[index]? = some connection) (known : 0 ≤ connection.chan.fd)
    (closed : connection.watched = false) :
    connection.chan.fd.toNat ∉ site.running.dispatch.dispatcherData.keys := by
  intro asked
  obtain ⟨own, entry⟩ := Option.ne_none_iff_exists'.mp (tidy.kept.entered _ asked)
  obtain ⟨channel, found, place⟩ := tidy.kept.known _ _ entry
  have mine := tidy.channel_at index
  rw [there, Option.map_some] at mine
  obtain rfl := tidy.apart mine found known (by omega)
  have watched := (tidy.opened index connection there known).mp entry
  rw [closed] at watched
  cases watched

end HttpSite

/-- In every run with fresh descriptors, a connection is where its own events alone bring it,
whatever the other connections do, and `poll` asks about its descriptor only while it is open. What
is reported belongs to an open connection, to the listening socket or to the wakeup. The loop itself
finds the channel of every descriptor, so that a run stops only where a connection alone would, or
with a failure that is not one of `channel_event_activate`. -/
theorem connections_replayed (strncmp : Bytes → Bytes → Int) (fuel : Nat) (memory : PollSet)
    {wakeupFd listenFd : Nat} (apart : wakeupFd ≠ listenFd) {events : List SiteEvent}
    (fresh : Along (siteStep strncmp fuel) HttpSite.Fresh (.start memory wakeupFd listenFd)
      events) :
    (∀ site, run (siteStep strncmp fuel) (.start memory wakeupFd listenFd) events = .ok site →
      (∀ (index : Nat) (connection : HttpConnection), site.connections[index]? = some connection →
        0 ≤ connection.chan.fd →
        run (httpStep strncmp fuel) (.established (index + 2) connection.chan.fd)
          (site.log connection.chan.fd) = .ok connection ∧
        (site.running.dispatch.channelMap.lookup connection.chan.fd.toNat = some (index + 2) ↔
          connection.watched = true) ∧
        (connection.watched = false →
          connection.chan.fd.toNat ∉ site.running.dispatch.dispatcherData.keys)) ∧
      ∀ batch rest fd readable writable, site.running.batch = some batch →
        pollBackend.next site.running.dispatch.dispatcherData batch =
          some (.activate fd readable writable, rest) →
        writable = false ∧ (site.running.dispatch.channelMap.lookup fd.toNat = some 0 ∨
          site.running.dispatch.channelMap.lookup fd.toNat = some 1 ∨
          ∃ (index : Nat) (connection : HttpConnection),
            site.running.dispatch.channelMap.lookup fd.toNat = some (index + 2) ∧
            site.connections[index]? = some connection ∧ connection.chan.fd = fd ∧
            connection.watched = true)) ∧
    ∀ stop, run (siteStep strncmp fuel) (.start memory wakeupFd listenFd) events = .error stop →
      HttpSite.MayStop strncmp fuel stop := by
  have started : (HttpSite.start memory wakeupFd listenFd).Tidy strncmp fuel :=
    HttpSite.start_tidy memory apart
  have keeps (site : HttpSite) (event : SiteEvent) (next : HttpSite)
      (tidy : site.Tidy strncmp fuel) (new : site.Fresh event)
      (taken : siteStep strncmp fuel site event = .ok next) : next.Tidy strncmp fuel :=
    tidy.step new taken
  constructor
  · intro site reached
    have tidy := run_invariant (HttpSite.Tidy strncmp fuel) keeps started fresh reached
    refine ⟨fun index connection there known => ⟨tidy.replayed index connection there known,
      tidy.opened index connection there known, tidy.forgotten there known⟩, ?_⟩
    intro batch rest fd readable writable left comes
    exact tidy.reported left comes
  · intro stop stopped
    exact run_stops_along (HttpSite.Tidy strncmp fuel) keeps
      (fun site event stop tidy new failed => tidy.stops new failed) started fresh stopped

/-- What a callback meets that reads nothing. -/
def Meeting.silent (accepted : Option Nat) : Meeting where
  accepted
  memory := true
  received := none
  turn := ⟨none, .wrote 0, .wrote 0, true⟩
  written := .wrote 0

/-- Two connections, of which the first is closed by its peer while the second has sent nothing. -/
def twoVisits : List SiteEvent :=
  let ready (first : Int) : SiteEvent := .poll fun fd => ⟨fd = first, false, false, false⟩
  [.register 1 true, ready 4, .serve (.silent (some 9)), .handlePending, ready 4,
    .serve (.silent (some 10)), .handlePending, ready 9, .serve (.silent none),
    .serve (.silent none)]

/-- The memory of a set before `poll_init`. -/
def PollSet.zeroed : PollSet := ⟨List.replicate initPollSize ⟨0, 0, 0⟩, List.length_replicate⟩

theorem connections_replayed_sample : ∃ site first second,
    run (siteStep difference 1) (.start .zeroed 3 4) twoVisits = .ok site ∧
    site.connections = [first, second] ∧
    run (httpStep difference 1) (.established 2 9) (site.log 9) = .ok first ∧
    first.watched = false ∧ 9 ∉ site.running.dispatch.dispatcherData.keys ∧
    run (httpStep difference 1) (.established 3 10) (site.log 10) = .ok second ∧
    second.watched = true ∧ site.running.dispatch.channelMap.lookup 10 = some 3 := by
  have fresh : Along (siteStep difference 1) HttpSite.Fresh (.start .zeroed 3 4) twoVisits := by
    decide +kernel
  have final : (run (siteStep difference 1) (.start .zeroed 3 4) twoVisits).toOption.map
      (fun site => site.connections.map fun connection : HttpConnection =>
        (connection.chan.fd, connection.watched)) = some [(9, false), (10, true)] := by
    decide +kernel
  have everywhere := (connections_replayed difference 1 .zeroed (by decide) fresh).1
  cases reached : run (siteStep difference 1) (.start .zeroed 3 4) twoVisits with
  | error stop =>
    rw [reached] at final
    cases final
  | ok site =>
    rw [reached] at final
    have alone := (everywhere site reached).1
    obtain ⟨first, others, listed, one, rest⟩ := List.map_eq_cons_iff.mp (Option.some.inj final)
    obtain ⟨second, none, rfl, two, last⟩ := List.map_eq_cons_iff.mp rest
    obtain rfl := List.map_eq_nil_iff.mp last
    obtain ⟨fd, closed⟩ := Prod.mk.inj one
    obtain ⟨other, watched⟩ := Prod.mk.inj two
    obtain ⟨replayed, _, forgotten⟩ := alone 0 first (by rw [listed]; rfl) (by rw [fd]; decide)
    obtain ⟨again, opened, _⟩ := alone 1 second (by rw [listed]; rfl) (by rw [other]; decide)
    rw [fd] at replayed forgotten
    rw [other] at again opened
    exact ⟨site, first, second, rfl, listed, replayed, closed, forgotten closed, again, watched,
      opened.mpr watched⟩

end Yolanda.Lib
