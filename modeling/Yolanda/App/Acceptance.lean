import Yolanda.App.HttpServer
import Yolanda.App.LoopPool
import Yolanda.App.World

/-! Calls of `handle_connection_established`, and what those do whose `accept` fails. -/

namespace Yolanda.App

open Foundation

/-- The values of `errno` a failed `accept` may leave. -/
inductive AcceptErrno where
  | again
  | connAborted
  | tooManyFiles
  | other
  deriving DecidableEq, Repr

/-- What `accept` answers: a descriptor, or -1 with an `errno`. -/
inductive AcceptResult where
  | accepted (fd : Nat)
  | failed (errno : AcceptErrno)
  deriving DecidableEq, Repr

namespace AcceptResult

/-- `connected_fd` -/
def connectedFd : AcceptResult → Int
  | .accepted fd => fd
  | .failed _ => -1

def succeeded : AcceptResult → Bool
  | .accepted _ => true
  | .failed _ => false

end AcceptResult

/-- `connection_completed_call_back` -/
abbrev ConnectionCompletedCallBack := TcpConnection → Except Fault TcpConnection

/-- A `TCPserver` that accepts, with the connections its callback was called for. -/
structure AcceptingServer where
  threadPool : LoopPool
  connectionCompletedCallBack : Option ConnectionCompletedCallBack
  world : World
  completed : List Nat

namespace AcceptingServer

/-- The call of the `connectionCompletedCallBack`, if there is one. -/
def complete (server : AcceptingServer) (number : Nat) (connection : TcpConnection) :
    Except Fault AcceptingServer :=
  match server.connectionCompletedCallBack with
  | none => .ok server
  | some callback => do
    let completed ← callback connection
    let world ← server.world.advance number connection completed
    return { server with world, completed := server.completed ++ [number] }

/-- `tcp_connection::tcp_connection` -/
def construct (server : AcceptingServer) (connectedFd : Int) (eventLoop : LoopRef) :
    Except Fault AcceptingServer := do
  let number := server.world.connections.length
  let connection := TcpConnection.new number eventLoop.number connectedFd
  let server ← { server with
    world.connections := server.world.connections ++ [connection] }.complete number connection
  return { server with
    world := server.world.doChannelEvent eventLoop.number (.connection number) 1 }

/-- `handle_connection_established`. On a negative descriptor `make_nonblocking` does
nothing. -/
def handleConnectionEstablished (server : AcceptingServer) (result : AcceptResult) :
    Except Fault AcceptingServer := do
  let (eventLoop, threadPool) ← LoopPool.getLoop server.threadPool
  { server with threadPool }.construct result.connectedFd eventLoop

/-- One call has called no callback, built nothing, queued nothing and taken no turn. -/
structure Unchanged (before after : AcceptingServer) : Prop where
  completed : after.completed = before.completed
  connections : after.world.connections = before.world.connections
  queued : after.world.queued = before.world.queued
  position : after.threadPool.position = before.threadPool.position

/-- Calls whose `accept` fails change nothing, and without them the same connections would
have come to the same loops. -/
structure IgnoresFailures (server : AcceptingServer) (results : List AcceptResult) : Prop where
  unchanged : Along handleConnectionEstablished (fun before result => result.succeeded = false →
    ∃ after, before.handleConnectionEstablished result = .ok after ∧ before.Unchanged after)
    server results
  same : ∀ final, run handleConnectionEstablished server results = .ok final →
    ∃ other, run handleConnectionEstablished server (results.filter AcceptResult.succeeded) =
      .ok other ∧ other.world.connections = final.world.connections

/-- What a call that returns has done, whatever `accept` answered. -/
structure Established (before after : AcceptingServer) : Prop where
  completed : after.completed = before.completed ++
    if before.connectionCompletedCallBack.isSome then [before.world.connections.length] else []
  connections : after.world.connections.length = before.world.connections.length + 1
  turn : ∃ eventLoop, LoopPool.getLoop before.threadPool = .ok (eventLoop, after.threadPool) ∧
    ∃ updates, after.world.queued = before.world.queued ++ updates ++
      [(eventLoop.number, { type := 1, channel := .connection before.world.connections.length })]

private theorem perform_queues {world next : World} {number eventLoop : Nat} {action : Action}
    (performed : world.perform number eventLoop action = .ok next) :
    next.connections = world.connections ∧
      ∃ operations, next.queued = world.queued ++ operations := by
  cases action with
  | update target =>
    cases target with
    | eventLoop loop =>
      rw [World.perform] at performed
      split at performed
      · cases performed
        exact ⟨rfl, _, rfl⟩
      · cases performed
    | null | tcpServer | tcpConnection => cases performed
  | remove =>
    cases performed
    exact ⟨rfl, _, rfl⟩
  | write | send | closed | request | shutdown =>
    cases performed
    exact ⟨rfl, [], (List.append_nil _).symm⟩

private theorem performAll_queues {world next : World} {number eventLoop : Nat}
    {actions : List Action} (performed : world.performAll number eventLoop actions = .ok next) :
    next.connections = world.connections ∧
      ∃ operations, next.queued = world.queued ++ operations := by
  induction actions generalizing world with
  | nil =>
    cases performed
    exact ⟨rfl, [], (List.append_nil _).symm⟩
  | cons action actions ih =>
    obtain ⟨middle, first, rest⟩ := bind_eq_ok.mp performed
    obtain ⟨same, operations, queued⟩ := perform_queues first
    obtain ⟨still, more, later⟩ := ih rest
    refine ⟨still.trans same, operations ++ more, ?_⟩
    rw [later, queued, List.append_assoc]

/-- The callback is called once, if there is one, and may queue updates. -/
theorem complete_ok {before after : AcceptingServer} {number : Nat} {connection : TcpConnection}
    (success : before.complete number connection = .ok after) :
    after.threadPool = before.threadPool ∧
    after.world.connections.length = before.world.connections.length ∧
    after.completed = before.completed ++
      (if before.connectionCompletedCallBack.isSome then [number] else []) ∧
    ∃ updates, after.world.queued = before.world.queued ++ updates := by
  cases installed : before.connectionCompletedCallBack with
  | none =>
    simp only [complete, installed, Except.ok.injEq] at success
    subst success
    exact ⟨rfl, rfl, (List.append_nil _).symm, [], (List.append_nil _).symm⟩
  | some callback =>
    simp only [complete, installed, bind_eq_ok] at success
    obtain ⟨completed, _, world, advanced, last⟩ := success
    cases last
    obtain ⟨same, updates, queued⟩ := performAll_queues advanced
    refine ⟨rfl, ?_, rfl, updates, queued⟩
    rw [same, List.length_set]

/-- Every call that returns has built a connection. -/
theorem handleConnectionEstablished_ok {before after : AcceptingServer} {result : AcceptResult}
    (success : before.handleConnectionEstablished result = .ok after) :
    before.Established after := by
  obtain ⟨⟨eventLoop, threadPool⟩, turn, built⟩ := bind_eq_ok.mp success
  obtain ⟨middle, completes, last⟩ := bind_eq_ok.mp built
  obtain ⟨pool, length, completed, updates, queued⟩ := complete_ok completes
  cases last
  refine ⟨completed, ?_, eventLoop, ?_, updates, ?_⟩
  · exact length.trans List.length_append
  · exact turn.trans (congrArg (fun pool => Except.ok (eventLoop, pool)) pool.symm)
  · exact congrArg (· ++ _) queued

/-- With a callback that only sends, the constructor does to the world what accepting for the
chosen loop does. -/
theorem construct_sends {before after : AcceptingServer} {sends : List (Bytes × WriteResult)}
    {connectedFd : Int} {eventLoop : LoopRef}
    (installed : before.connectionCompletedCallBack = some (TcpConnection.sendAll · sends))
    (success : before.construct connectedFd eventLoop = .ok after) :
    before.world.accept eventLoop.number connectedFd sends = .ok after.world := by
  obtain ⟨middle, completes, last⟩ := bind_eq_ok.mp success
  simp only [complete, installed, bind_eq_ok] at completes
  obtain ⟨completed, sent, world, advanced, whole⟩ := completes
  cases whole
  cases last
  simp only [World.accept, sent, ok_bind, advanced]
  rfl

/-- No call leaves the connections as they are. -/
theorem Established.changes {before after : AcceptingServer}
    (established : before.Established after) : ¬ before.Unchanged after := by
  intro unchanged
  have more := established.connections
  rw [unchanged.connections] at more
  omega

/-- Failures of `accept` go unnoticed exactly in the runs that meet none. -/
theorem failures_ignored_iff (server : AcceptingServer) (results : List AcceptResult) :
    server.IgnoresFailures results ↔
      Along handleConnectionEstablished (fun _ result => result.succeeded = true) server
        results := by
  constructor
  · intro ignores
    refine Along.weaken ?_ ignores.unchanged
    intro before result unchanged
    by_contra fails
    obtain ⟨after, success, same⟩ := unchanged (Bool.eq_false_of_not_eq_true fails)
    exact (handleConnectionEstablished_ok success).changes same
  · intro succeeds
    constructor
    · refine Along.weaken ?_ succeeds
      intro before result good bad
      rw [good] at bad
      cases bad
    · intro final success
      refine ⟨final, ?_, rfl⟩
      induction results generalizing server with
      | nil => exact success
      | cons result results ih =>
        obtain ⟨next, taken, rest⟩ := run_cons_ok.mp success
        rw [List.filter_cons_of_pos succeeds.1, run_cons taken]
        exact ih next (succeeds.2 next taken) rest

/-- A server with one thread and the callback of HTTP, before the first connection. -/
def sample : AcceptingServer :=
  { threadPool :=
      { mainLoop := .main, started := true, threadNumber := 1, eventLoopThreads := [.thread 0],
        position := 0 }
    connectionCompletedCallBack := some fun connection => .ok (httpOnConnectionCompleted connection)
    world := .empty
    completed := [] }

/-- A failed `accept` builds a connection for descriptor -1. -/
theorem failed_accept_establishes : ¬ sample.IgnoresFailures [.failed .again] ∧
    ∃ after, sample.handleConnectionEstablished (.failed .again) = .ok after ∧
      after.completed = [0] ∧ after.world.connections.map (·.chan.fd) = [-1] ∧
      after.world.queued = [(1, { type := 1, channel := .connection 0 })] := by
  constructor
  · intro ignores
    obtain ⟨after, success, same⟩ := ignores.unchanged.1 rfl
    exact (handleConnectionEstablished_ok success).changes same
  · exact ⟨_, rfl, rfl, rfl, rfl⟩

end AcceptingServer

end Yolanda.App
