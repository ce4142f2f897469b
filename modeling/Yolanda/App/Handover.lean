import Mathlib.Logic.Function.Basic
import Yolanda.Foundation.Run
import Yolanda.Machine

/-! The accepting thread hands a connection over to the loop of another thread in the
middle of building it: the channel is queued by the constructor, and the data for the
callbacks is copied after it. -/

namespace Yolanda.App

open Foundation

/-- `class thread_pool` -/
structure ThreadPool where
  threadNumber : Int
  position : Nat

/-- `get_loop`. Number 0 is the main loop, and number `i + 1` the loop of thread `i`. -/
def ThreadPool.getLoop (pool : ThreadPool) : Nat × ThreadPool :=
  if pool.threadNumber > 0 then
    (pool.position + 1, { pool with
      position := if (pool.position + 1 : Nat) ≥ pool.threadNumber then 0 else pool.position + 1 })
  else (0, pool)

/-- What concerns the hand-over of `struct tcp_connection`. The constructor does not set
`data`. -/
structure Accepted where
  eventLoop : Nat
  data : Option Nat

def Accepted.setData (accepted : Accepted) (data : Nat) : Accepted :=
  { accepted with data := some data }

/-- The connections in the list and in the map of a loop. -/
structure IoLoop where
  pending : List Nat
  channelMap : List Nat

namespace IoLoop

/-- `channel_buffer_nolock` with an addition. -/
def buffer (io : IoLoop) (connection : Nat) : IoLoop :=
  { io with pending := io.pending ++ [connection] }

/-- `handle_pending_channel` -/
def drain (io : IoLoop) : IoLoop :=
  { pending := [], channelMap := io.channelMap ++ io.pending }

/-- The removal that the end of a connection queues and handles. -/
def erase (io : IoLoop) (connection : Nat) : IoLoop :=
  { io with channelMap := io.channelMap.filter (· ≠ connection) }

/-- A connection is known to a loop, which is to watch it or does. -/
def Known (io : IoLoop) (connection : Nat) : Prop :=
  connection ∈ io.pending ∨ connection ∈ io.channelMap

theorem known_buffer {io : IoLoop} {connection number : Nat} :
    (io.buffer connection).Known number ↔ io.Known number ∨ number = connection := by
  simp [Known, buffer, or_assoc, or_comm]

theorem known_drain {io : IoLoop} {number : Nat} : io.drain.Known number ↔ io.Known number := by
  simp [Known, drain, or_comm]

theorem known_of_erase {io : IoLoop} {connection number : Nat}
    (known : (io.erase connection).Known number) : io.Known number := by
  rcases known with pending | mapped
  · exact .inl pending
  · exact .inr (List.mem_of_mem_filter mapped)

end IoLoop

/-- Where the main thread stands in `handle_connection_established`. -/
inductive AcceptPlace where
  | idle
  /-- In the constructor, before `add_channel_event`. -/
  | built (connection : Nat)
  /-- In the constructor, with the channel queued and the loop not woken up yet. -/
  | queued (connection : Nat)
  /-- Behind the constructor, before `data` is copied. -/
  | returned (connection : Nat)
  deriving DecidableEq

/-- The connection that is being built. -/
def AcceptPlace.connection : AcceptPlace → Option Nat
  | .idle => none
  | .built connection | .queued connection | .returned connection => some connection

/-- A server with its loops, the main thread, and the calls of `messageCallBack` with the
`data` each of them finds in its connection. -/
structure Handover where
  pool : ThreadPool
  serverData : Option Nat
  connections : List Accepted
  place : AcceptPlace
  loops : Nat → IoLoop
  calls : List (Nat × Option Nat)

inductive HandoverEvent where
  /-- The main loop reports the listening socket. -/
  | accept
  /-- The main thread takes its next step in `handle_connection_established`. -/
  | advance
  /-- `handle_pending_channel` of a loop -/
  | drain (eventLoop : Nat)
  /-- A loop reports bytes on the descriptor of a connection. -/
  | read (eventLoop connection : Nat)
  /-- A loop reports the end of a connection. -/
  | closed (eventLoop connection : Nat)

namespace Handover

/-- `http_server::http_server` has set the data of the server. -/
def start (server : Nat) (threadNumber : Int) : Handover :=
  { pool := { threadNumber, position := 0 }
    serverData := some server
    connections := []
    place := .idle
    loops := fun _ => ⟨[], []⟩
    calls := [] }

/-- The thread of a loop is free. The main thread serves its loop, and is not free while it
accepts. -/
def free (server : Handover) (eventLoop : Nat) : Bool :=
  eventLoop ≠ 0 || server.place = .idle

/-- Change one of the loops. -/
def onLoop (server : Handover) (eventLoop : Nat) (change : IoLoop → IoLoop) : Handover :=
  { server with
    loops := Function.update server.loops eventLoop (change (server.loops eventLoop)) }

/-- `handle_connection_established` up to the `add_channel_event` of the constructor. -/
def accept (server : Handover) : Handover :=
  let (eventLoop, pool) := server.pool.getLoop
  { server with
    pool
    connections := server.connections ++ [⟨eventLoop, none⟩]
    place := .built server.connections.length }

/-- The loop a connection was given. -/
def eventLoop (server : Handover) (connection : Nat) : Nat :=
  (server.connections[connection]?.map Accepted.eventLoop).getD 0

/-- `if (tcpServer->data != NULL) tcpConnection->data = tcpServer->data` -/
def copyData (server : Handover) (connection : Nat) : Handover :=
  match server.serverData with
  | none => server
  | some data =>
    { server with
      connections := server.connections.modify connection (Accepted.setData · data) }

/-- The rest of `handle_connection_established`, one step at a time. -/
def advance (server : Handover) : Handover :=
  match server.place with
  | .idle => server
  | .built connection =>
    { server.onLoop (server.eventLoop connection) (·.buffer connection) with
      place := .queued connection }
  | .queued connection =>
    -- `do_channel_event` handles the list itself only in the thread of the loop
    let server := if server.eventLoop connection = 0 then server.onLoop 0 .drain else server
    { server with place := .returned connection }
  | .returned connection => { server.copyData connection with place := .idle }

/-- `handle_read` for a connection, up to the `messageCallBack`. -/
def read (server : Handover) (connection : Nat) : Handover :=
  { server with calls := server.calls ++
      [(connection, server.connections[connection]?.bind Accepted.data)] }

end Handover

/-- An event that cannot happen changes nothing. -/
def handoverStep (server : Handover) : HandoverEvent → Except Fault Handover
  | .accept => .ok (if server.place = .idle then server.accept else server)
  | .advance => .ok server.advance
  | .drain eventLoop =>
    .ok (if server.free eventLoop then server.onLoop eventLoop .drain else server)
  | .read eventLoop connection =>
    .ok (if server.free eventLoop ∧ connection ∈ (server.loops eventLoop).channelMap then
      server.read connection else server)
  | .closed eventLoop connection =>
    .ok (if server.free eventLoop then server.onLoop eventLoop (·.erase connection) else server)

/-- Every call of `messageCallBack` finds the data of the server in its connection. -/
def Handover.DataSet (server : Handover) : Prop :=
  ∀ call ∈ server.calls, call.2 = server.serverData

/-- A loop reads from a connection only when its `handle_connection_established` is over. -/
def HandedOver (server : Handover) : HandoverEvent → Prop
  | .read eventLoop connection => server.free eventLoop = true →
    connection ∈ (server.loops eventLoop).channelMap → server.place.connection ≠ some connection
  | _ => True

namespace Handover

variable {server next : Handover} {connection eventLoop data : Nat} {threadNumber : Int}

/-- The connection was built for the loop. -/
def Given (server : Handover) (eventLoop connection : Nat) : Prop :=
  ∃ accepted : Accepted,
    server.connections[connection]? = some accepted ∧ accepted.eventLoop = eventLoop

/-- Only the connection that is being built is without the data of the server, and no loop
knows it before it is queued. -/
structure Invariant (data : Nat) (threadNumber : Int) (server : Handover) : Prop where
  served : server.serverData = some data
  threads : server.pool.threadNumber = threadNumber
  copied : ∀ (number : Nat) (accepted : Accepted), server.connections[number]? = some accepted →
    accepted.data = if server.place.connection = some number then none else some data
  inside : ∀ number, server.place.connection = some number → number < server.connections.length
  known : ∀ eventLoop number, (server.loops eventLoop).Known number →
    server.Given eventLoop number
  /-- Without threads of its own the pool gives out the main loop. -/
  alone : threadNumber ≤ 0 → ∀ (number : Nat) (accepted : Accepted),
    server.connections[number]? = some accepted → accepted.eventLoop = 0

theorem start_invariant (data : Nat) (threadNumber : Int) :
    (start data threadNumber).Invariant data threadNumber := by
  constructor
  · rfl
  · rfl
  · intro number accepted found
    cases found
  · exact nofun
  · intro eventLoop number known
    rcases known with pending | mapped
    · cases pending
    · cases mapped
  · intro _ number accepted found
    cases found

/-- A loop that knows the connections it was given keeps the invariant. -/
theorem onLoop_invariant {change : IoLoop → IoLoop} (kept : server.Invariant data threadNumber)
    (fits : ∀ number, (change (server.loops eventLoop)).Known number →
      server.Given eventLoop number) :
    (server.onLoop eventLoop change).Invariant data threadNumber := by
  refine ⟨kept.served, kept.threads, kept.copied, kept.inside, ?_, kept.alone⟩
  intro other number known
  by_cases same : other = eventLoop
  · cases same
    simp only [onLoop, Function.update_self] at known
    exact fits number known
  · simp only [onLoop, Function.update_of_ne same] at known
    exact kept.known other number known

theorem drain_invariant (kept : server.Invariant data threadNumber) :
    (server.onLoop eventLoop .drain).Invariant data threadNumber :=
  onLoop_invariant kept fun number known =>
    kept.known eventLoop number (IoLoop.known_drain.mp known)

theorem erase_invariant (kept : server.Invariant data threadNumber) :
    (server.onLoop eventLoop (·.erase connection)).Invariant data threadNumber :=
  onLoop_invariant kept fun number known =>
    kept.known eventLoop number (IoLoop.known_of_erase known)

theorem buffer_invariant (kept : server.Invariant data threadNumber)
    (built : server.place = .built connection) :
    (server.onLoop (server.eventLoop connection) (·.buffer connection)).Invariant
      data threadNumber := by
  have inside : connection < server.connections.length :=
    kept.inside connection (by rw [built]; rfl)
  have found := List.getElem?_eq_getElem inside
  apply onLoop_invariant kept
  intro number known
  rcases IoLoop.known_buffer.mp known with before | rfl
  · exact kept.known _ number before
  · exact ⟨_, found, by simp only [eventLoop, found, Option.map_some, Option.getD_some]⟩

/-- The steps of `handle_connection_established` for one connection. -/
theorem place_invariant {place : AcceptPlace} (kept : server.Invariant data threadNumber)
    (same : place.connection = server.place.connection) :
    { server with place }.Invariant data threadNumber := by
  refine ⟨kept.served, kept.threads, ?_, ?_, kept.known, kept.alone⟩
  · simpa only [same] using kept.copied
  · simpa only [same] using kept.inside

theorem getLoop_threadNumber (pool : ThreadPool) : pool.getLoop.2.threadNumber = pool.threadNumber := by
  unfold ThreadPool.getLoop
  split <;> rfl

theorem accept_invariant (kept : server.Invariant data threadNumber)
    (idle : server.place = .idle) : server.accept.Invariant data threadNumber := by
  have unplaced : server.place.connection = none := by rw [idle]; rfl
  have split {number : Nat} {accepted : Accepted}
      (found : (server.connections ++ [⟨server.pool.getLoop.1, none⟩])[number]? = some accepted) :
      server.connections[number]? = some accepted ∧ number ≠ server.connections.length ∨
        number = server.connections.length ∧ accepted = ⟨server.pool.getLoop.1, none⟩ := by
    rcases Nat.lt_trichotomy number server.connections.length with before | last | behind
    · rw [List.getElem?_append_left before] at found
      exact .inl ⟨found, by omega⟩
    · subst last
      rw [List.getElem?_concat_length] at found
      exact .inr ⟨rfl, (Option.some.inj found).symm⟩
    · rw [List.getElem?_eq_none (by rw [List.length_append, List.length_singleton]; omega)] at found
      cases found
  constructor
  · exact kept.served
  · exact (getLoop_threadNumber server.pool).trans kept.threads
  · intro number accepted found
    rcases split found with ⟨old, other⟩ | ⟨rfl, rfl⟩
    · have copied := kept.copied number accepted old
      rw [unplaced, if_neg nofun] at copied
      rw [copied, if_neg]
      exact fun equal => other (Option.some.inj equal).symm
    · exact (if_pos rfl).symm
  · intro number placed
    cases placed
    exact Nat.lt_of_lt_of_eq (Nat.lt_succ_self _) (by simp [accept])
  · intro eventLoop number known
    obtain ⟨accepted, found, given⟩ := kept.known eventLoop number known
    refine ⟨accepted, ?_, given⟩
    exact (List.getElem?_append_left (List.getElem?_eq_some_iff.mp found).1).trans found
  · intro few number accepted found
    rcases split found with ⟨old, _⟩ | ⟨rfl, rfl⟩
    · exact kept.alone few number accepted old
    · have none : ¬ server.pool.threadNumber > 0 := by rw [kept.threads]; omega
      simp only [ThreadPool.getLoop, if_neg none]

/-- What a connection is when the data has been copied. -/
theorem copyData_found {number : Nat} {accepted : Accepted} (served : server.serverData = some data)
    (found : (server.copyData connection).connections[number]? = some accepted) :
    ∃ before : Accepted, server.connections[number]? = some before ∧
      accepted.eventLoop = before.eventLoop ∧
      accepted.data = if connection = number then some data else before.data := by
  simp only [copyData, served, List.getElem?_modify, Option.map_eq_map,
    Option.map_eq_some_iff] at found
  obtain ⟨before, old, rfl⟩ := found
  refine ⟨before, old, ?_⟩
  by_cases same : connection = number
  · simp only [if_pos same, Accepted.setData, and_self]
  · simp only [if_neg same, and_self]

theorem copyData_invariant (kept : server.Invariant data threadNumber)
    (placed : server.place = .returned connection) :
    { server.copyData connection with place := .idle }.Invariant data threadNumber := by
  have there : server.place.connection = some connection := by rw [placed]; rfl
  have copy : server.copyData connection = { server with
      connections := server.connections.modify connection (Accepted.setData · data) } := by
    simp only [copyData, kept.served]
  constructor
  · rw [copy]
    exact kept.served
  · rw [copy]
    exact kept.threads
  · intro number accepted found
    obtain ⟨before, old, _, set⟩ := copyData_found kept.served found
    have earlier := kept.copied number before old
    rw [there] at earlier
    by_cases same : connection = number
    · rw [set, if_pos same]
      rfl
    · rw [if_neg fun equal => same (Option.some.inj equal)] at earlier
      rw [set, if_neg same, earlier]
      rfl
  · exact nofun
  · intro eventLoop number known
    rw [copy] at known
    obtain ⟨accepted, found, given⟩ := kept.known eventLoop number known
    have modified := List.getElem?_modify (Accepted.setData · data) connection server.connections
      number
    rw [found] at modified
    refine ⟨_, (congrArg (·.connections[number]?) copy).trans modified, ?_⟩
    by_cases same : connection = number
    · simp only [if_pos same]
      exact given
    · simp only [if_neg same]
      exact given
  · intro few number accepted found
    obtain ⟨before, old, given, _⟩ := copyData_found kept.served found
    exact given.trans (kept.alone few number before old)

theorem advance_invariant (kept : server.Invariant data threadNumber) :
    server.advance.Invariant data threadNumber := by
  unfold advance
  split
  case h_1 => exact kept
  case h_2 connection built =>
    exact place_invariant (buffer_invariant kept built) (congrArg AcceptPlace.connection built).symm
  case h_3 connection queued =>
    split
    · exact place_invariant (drain_invariant kept) (congrArg AcceptPlace.connection queued).symm
    · exact place_invariant kept (congrArg AcceptPlace.connection queued).symm
  case h_4 connection returned => exact copyData_invariant kept returned

theorem read_invariant (kept : server.Invariant data threadNumber) :
    (server.read connection).Invariant data threadNumber :=
  ⟨kept.served, kept.threads, kept.copied, kept.inside, kept.known, kept.alone⟩

theorem handoverStep_invariant {event : HandoverEvent} (kept : server.Invariant data threadNumber)
    (taken : handoverStep server event = .ok next) : next.Invariant data threadNumber := by
  cases event <;> simp only [handoverStep, Except.ok.injEq] at taken <;> subst taken
  case accept =>
    split
    case isTrue idle => exact accept_invariant kept idle
    case isFalse => exact kept
  case advance => exact advance_invariant kept
  case drain =>
    split
    · exact drain_invariant kept
    · exact kept
  case read =>
    split
    · exact read_invariant kept
    · exact kept
  case closed =>
    split
    · exact erase_invariant kept
    · exact kept

/-- The data a callback finds is that of the server, unless its connection is being built. -/
theorem read_dataSet (kept : server.Invariant data threadNumber) (held : server.DataSet)
    (known : connection ∈ (server.loops eventLoop).channelMap) :
    (server.read connection).DataSet ↔ server.place.connection ≠ some connection := by
  obtain ⟨accepted, found, _⟩ := kept.known eventLoop connection (.inr known)
  have copied := kept.copied connection accepted found
  have finds : (server.read connection).DataSet ↔ accepted.data = some data := by
    constructor
    · intro set
      have last := set _ (List.mem_append_right _ (List.mem_singleton_self _))
      rw [found] at last
      exact last.trans kept.served
    · intro same call called
      rcases List.mem_append.mp called with earlier | last
      · exact held call earlier
      · rw [List.mem_singleton.mp last, found]
        exact same.trans kept.served.symm
  rw [finds, copied]
  by_cases placed : server.place.connection = some connection
  · simp [placed]
  · simp [placed]

theorem advance_calls : server.advance.calls = server.calls := by
  unfold advance
  split
  case h_1 => rfl
  case h_2 => rfl
  case h_3 => split <;> rfl
  case h_4 =>
    unfold copyData
    split <;> rfl

/-- Only a read calls back. -/
theorem handoverStep_calls {event : HandoverEvent} (taken : handoverStep server event = .ok next) :
    next.calls = server.calls ∧ HandedOver server event ∨
      ∃ eventLoop connection, event = .read eventLoop connection := by
  cases event with
  | accept =>
    cases taken
    refine .inl ⟨?_, trivial⟩
    split <;> rfl
  | advance =>
    cases taken
    exact .inl ⟨advance_calls, trivial⟩
  | drain =>
    cases taken
    refine .inl ⟨?_, trivial⟩
    split <;> rfl
  | read eventLoop connection => exact .inr ⟨eventLoop, connection, rfl⟩
  | closed =>
    cases taken
    refine .inl ⟨?_, trivial⟩
    split <;> rfl

/-- The calls that were made stay. -/
theorem handoverStep_grows {event : HandoverEvent} (taken : handoverStep server event = .ok next) :
    server.calls <+: next.calls := by
  rcases handoverStep_calls taken with ⟨same, _⟩ | ⟨eventLoop, connection, rfl⟩
  · exact same.symm ▸ List.prefix_refl _
  · cases taken
    split
    · exact List.prefix_append ..
    · exact List.prefix_refl _

theorem dataSet_of_prefix (kept : server.Invariant data threadNumber)
    (later : next.Invariant data threadNumber) (grown : server.calls <+: next.calls)
    (held : next.DataSet) : server.DataSet := by
  intro call called
  have set := held call (grown.subset called)
  rw [later.served] at set
  rw [kept.served]
  exact set

theorem handoverStep_dataSet {event : HandoverEvent} (kept : server.Invariant data threadNumber)
    (held : server.DataSet) (taken : handoverStep server event = .ok next) :
    next.DataSet ↔ HandedOver server event := by
  have later := handoverStep_invariant kept taken
  rcases handoverStep_calls taken with ⟨same, handed⟩ | ⟨eventLoop, connection, rfl⟩
  · exact ⟨fun _ => handed, fun _ => dataSet_of_prefix later kept (same ▸ List.prefix_refl _) held⟩
  · simp only [handoverStep, Except.ok.injEq] at taken
    subst taken
    by_cases possible : server.free eventLoop ∧ connection ∈ (server.loops eventLoop).channelMap
    · rw [if_pos possible, read_dataSet kept held possible.2]
      exact ⟨fun set _ _ => set, fun handed => handed possible.1 possible.2⟩
    · rw [if_neg possible]
      exact ⟨fun _ free known => absurd ⟨free, known⟩ possible, fun _ => held⟩

theorem handoverStep_returns (server : Handover) (event : HandoverEvent) :
    ∃ next, handoverStep server event = .ok next := by
  cases event <;> exact ⟨_, rfl⟩

end Handover

open Handover

/-- A pool without threads of its own hands every connection over to the main loop, which
cannot read before it is free. -/
theorem handedOver_of_alone {data : Nat} {threadNumber : Int} {server : Handover}
    (kept : server.Invariant data threadNumber) (alone : threadNumber ≤ 0) (event : HandoverEvent) :
    HandedOver server event := by
  cases event with
  | read eventLoop connection =>
    intro free known
    obtain ⟨accepted, found, given⟩ := kept.known eventLoop connection (.inr known)
    have main : eventLoop = 0 := given.symm.trans (kept.alone alone connection accepted found)
    have idle : server.place = .idle := by simpa [Handover.free, main] using free
    rw [idle]
    exact nofun
  | accept => trivial
  | advance => trivial
  | drain => trivial
  | closed => trivial

/-- With a thread in the pool its loop can add the channel and read before the main thread
is behind the constructor. -/
theorem early_read (server : Nat) {threadNumber : Int} (threads : 0 < threadNumber) :
    ∃ final, run handoverStep (.start server threadNumber)
        [.accept, .advance, .drain 1, .read 1 0] = .ok final ∧ ¬ final.DataSet := by
  refine ⟨_, rfl, ?_⟩
  intro set
  simp [Handover.accept, Handover.start, ThreadPool.getLoop, Handover.advance, threads,
    Handover.eventLoop, Handover.onLoop, Handover.free, Handover.read, IoLoop.buffer, IoLoop.drain,
    Handover.DataSet] at set

/-- The loop of the only thread calls back for the first connection without its data. -/
theorem callback_without_data :
    ∃ final, run handoverStep (.start 7 1) [.accept, .advance, .drain 1, .read 1 0] = .ok final ∧
      ¬ final.DataSet :=
  early_read 7 (by decide)

/-- `messageCallBack` runs only with the data of the server exactly when no loop reads from
a connection that is still being built. This is so in all interleavings only without
threads. -/
theorem data_set_iff (server : Nat) (threadNumber : Int) :
    (∀ events, ∃ final, run handoverStep (.start server threadNumber) events = .ok final ∧
      (final.DataSet ↔ Along handoverStep HandedOver (.start server threadNumber) events)) ∧
    ((∀ events, ∃ final, run handoverStep (.start server threadNumber) events = .ok final ∧
      final.DataSet) ↔ threadNumber ≤ 0) := by
  have begun := start_invariant server threadNumber
  have any (events : List HandoverEvent) :
      Along handoverStep (fun _ _ => True) (.start server threadNumber) events :=
    Along.of_forall (fun _ _ _ => trivial) _
  have ends (events : List HandoverEvent) : ∃ final,
      run handoverStep (.start server threadNumber) events = .ok final ∧
        (final.DataSet ↔ Along handoverStep HandedOver (.start server threadNumber) events) := by
    obtain ⟨final, success, _⟩ := run_succeeds (fun _ => True)
      (fun state event _ _ => (handoverStep_returns state event).imp
        fun _ taken => ⟨taken, trivial⟩) trivial (any events)
    refine ⟨final, success, ?_⟩
    exact run_along_iff (Handover.Invariant server threadNumber) Handover.DataSet
      (fun _ _ _ kept taken => handoverStep_invariant kept taken)
      (fun _ _ _ kept taken held => dataSet_of_prefix kept (handoverStep_invariant kept taken)
        (handoverStep_grows taken) held)
      (fun _ _ _ kept held taken => handoverStep_dataSet kept held taken) begun nofun success
  refine ⟨ends, ?_⟩
  constructor
  · intro always
    by_contra threads
    obtain ⟨final, success, unset⟩ := early_read server (Int.not_le.mp threads)
    obtain ⟨other, again, set⟩ := always [.accept, .advance, .drain 1, .read 1 0]
    cases success.symm.trans again
    exact unset set
  · intro alone events
    obtain ⟨final, success, iff⟩ := ends events
    refine ⟨final, success, iff.mpr ?_⟩
    exact Along.imp (Handover.Invariant server threadNumber)
      (fun _ _ _ kept _ taken => handoverStep_invariant kept taken)
      (fun _ event kept _ => handedOver_of_alone kept alone event) begun (any events)

end Yolanda.App
