import Yolanda.App.World

/-! The way from a change of the write interest to an event loop. The `data` of a channel
is a loop in a wakeup channel only, so the way is right as long as no connection takes it. -/

namespace Yolanda.App

open Foundation

/-- The socket takes all data in the first call of `write`, or `EPIPE` or `ECONNRESET`
makes `send_data` drop it. -/
def TakenAtOnce (data : Bytes) : WriteResult → Prop
  | .wrote count => data.length ≤ count
  | .failed errno => data = [] ∨ errno = .pipe ∨ errno = .connReset

/-- The step asks no socket for more than it takes. -/
def Unpressed (world : World) : WorldEvent → Prop
  | .accept tcpServer eventLoop _ sends =>
    tcpServer < world.servers.length ∧ eventLoop < world.loops.length →
      ∀ send ∈ sends, TakenAtOnce send.1 send.2
  | .output number event =>
    number < world.connections.length →
      match event with
      | .sendData data result => TakenAtOnce data result
      | .sendBuffer buffer result =>
        ∃ data, buffer.readableBlock = .ok data ∧ TakenAtOnce data result
      | .handleWrite _ _ => True
  | _ => True

/-- The calls that reach a loop. -/
def Action.reachesLoop : Action → Bool
  | .update _ | .remove _ => true
  | _ => false

namespace TcpConnection

variable {connection after : TcpConnection} {data : Bytes} {result : WriteResult}

/-- Calls of a connection that reach no loop. -/
def Local (actions : List Action) : Prop :=
  ∀ action ∈ actions, action.reachesLoop = false

private theorem queueRest_loud {rest : Bytes} (off : connection.chan.writeEventIsEnabled = false)
    (pending : rest ≠ []) (success : connection.queueRest false rest = .ok after) :
    after.trace = connection.trace ++ [.update connection.chan.data] := by
  have some : (!false && decide (rest.length > 0)) = true := by
    simpa [List.length_pos_iff] using pending
  unfold queueRest at success
  rw [if_pos some] at success
  obtain ⟨output, _, next⟩ := bind_eq_ok.mp success
  simp only [off, Bool.false_eq_true, ↓reduceIte, pure, Except.pure, Except.ok.injEq] at next
  rw [← next]
  rfl

private theorem idle_off (idle : connection.idle = true) :
    connection.chan.writeEventIsEnabled = false := by
  have both := Bool.and_eq_true_iff.mp idle
  simpa using both.1

private theorem Local.of_pair {first second : Action} (one : first.reachesLoop = false)
    (two : second.reachesLoop = false) : Local [first, second] := by
  intro action member
  rcases List.mem_cons.mp member with here | there
  · rw [here]
    exact one
  · rw [List.mem_singleton.mp there]
    exact two

/-- How `send_data` starts on an idle connection: with the bytes the socket takes. -/
private theorem writeDirectly_idle (idle : connection.idle = true) (data : Bytes) (result : WriteResult) :
    ∃ nwrited fault taken,
      connection.writeDirectly data result = (nwrited, fault, connection.record [.write taken]) ∧
        (TakenAtOnce data result ↔ fault = true ∨ data.drop nwrited = []) := by
  unfold writeDirectly
  rw [if_pos idle]
  cases result with
  | wrote count =>
    refine ⟨_, _, _, rfl, ?_⟩
    unfold TakenAtOnce
    rw [List.drop_eq_nil_iff]
    constructor
    · intro all
      exact .inr (Nat.le_min.mpr ⟨all, le_refl _⟩)
    · intro taken
      rcases taken with fault | rest
      · cases fault
      · exact rest.trans (Nat.min_le_left ..)
  | failed errno =>
    refine ⟨_, _, _, rfl, ?_⟩
    unfold TakenAtOnce
    rw [List.drop_zero, Bool.or_eq_true, decide_eq_true_iff, decide_eq_true_iff]
    exact or_comm

/-- On an idle connection `send_data` leaves the write interest alone when the data is
taken at once. -/
theorem sendData_taken (idle : connection.idle = true) (all : TakenAtOnce data result) :
    ∃ sent actions, Local actions ∧
      connection.sendData data result = .ok (sent, connection.record actions) := by
  obtain ⟨nwrited, fault, taken, direct, iff⟩ := writeDirectly_idle idle data result
  have silent : Local [.write taken, .send data fault] := Local.of_pair rfl rfl
  refine ⟨intOfSize nwrited, _, silent, (sendData_ok direct).mpr ⟨rfl, ?_⟩⟩
  rw [record_record]
  unfold queueRest
  rw [if_neg]
  · rfl
  · rcases iff.mp all with refused | empty
    · simp [refused]
    · simp [empty]

/-- On an idle connection `send_data` turns the write interest on when it is not. -/
theorem sendData_pressed (idle : connection.idle = true) (short : ¬ TakenAtOnce data result)
    {sent : Int} (success : connection.sendData data result = .ok (sent, after)) :
    ∃ actions, Local actions ∧
      after.trace = connection.trace ++ (actions ++ [.update connection.chan.data]) := by
  obtain ⟨nwrited, fault, taken, direct, iff⟩ := writeDirectly_idle idle data result
  obtain ⟨_, rest⟩ := (sendData_ok direct).mp success
  rw [record_record] at rest
  obtain ⟨accepted, pending⟩ := not_or.mp (fun is => short (iff.mpr is))
  cases fault with
  | true => exact absurd rfl accepted
  | false =>
    have extended := queueRest_loud (by exact idle_off idle) pending rest
    have silent : Local [.write taken, .send data false] := Local.of_pair rfl rfl
    exact ⟨_, silent, extended.trans (List.append_assoc ..)⟩

theorem sendAll_extends {sends : List (Bytes × WriteResult)}
    (success : connection.sendAll sends = .ok after) :
    ∃ actions, after.trace = connection.trace ++ actions := by
  induction sends generalizing connection with
  | nil =>
    cases success
    exact ⟨[], (List.append_nil _).symm⟩
  | cons send sends ih =>
    obtain ⟨⟨sent, middle⟩, first, rest⟩ := bind_eq_ok.mp success
    obtain ⟨actions, extended, _⟩ := (sendData_sent first).sending
    obtain ⟨more, final⟩ := ih rest
    exact ⟨actions ++ more, by rw [final, extended, List.append_assoc]⟩

theorem sendAll_taken {sends : List (Bytes × WriteResult)} (idle : connection.idle = true)
    (all : ∀ send ∈ sends, TakenAtOnce send.1 send.2) :
    ∃ actions, Local actions ∧ connection.sendAll sends = .ok (connection.record actions) := by
  induction sends generalizing connection with
  | nil =>
    refine ⟨[], fun action member => ?_, ?_⟩
    · cases member
    · simp [sendAll, record]
  | cons send sends ih =>
    obtain ⟨sent, actions, silent, first⟩ := sendData_taken idle (all send (List.mem_cons_self ..))
    have still : (connection.record actions).idle = true := idle
    obtain ⟨more, quiet, rest⟩ := ih still fun other member => all other (List.mem_cons_of_mem _ member)
    refine ⟨actions ++ more, ?_, ?_⟩
    · intro action member
      rcases List.mem_append.mp member with early | late
      · exact silent action early
      · exact quiet action late
    · rw [record_record] at rest
      exact bind_eq_ok.mpr ⟨_, first, rest⟩

theorem sendAll_pressed {sends : List (Bytes × WriteResult)} (idle : connection.idle = true)
    (short : ¬ ∀ send ∈ sends, TakenAtOnce send.1 send.2)
    (success : connection.sendAll sends = .ok after) :
    ∃ actions, after.trace = connection.trace ++ actions ∧
      .update connection.chan.data ∈ actions := by
  induction sends generalizing connection with
  | nil =>
    apply absurd _ short
    intro send member
    cases member
  | cons send sends ih =>
    obtain ⟨⟨sent, middle⟩, first, rest⟩ := bind_eq_ok.mp success
    by_cases taken : TakenAtOnce send.1 send.2
    · obtain ⟨_, actions, _, same⟩ := sendData_taken idle taken
      cases (Prod.mk.inj (Except.ok.inj (same.symm.trans first))).2
      have later : ¬ ∀ other ∈ sends, TakenAtOnce other.1 other.2 := by
        intro others
        apply short
        intro other member
        rcases List.mem_cons.mp member with here | there
        · rw [here]
          exact taken
        · exact others other there
      have still : (connection.record actions).idle = true := idle
      obtain ⟨more, extended, update⟩ := ih still later rest
      exact ⟨actions ++ more, extended.trans (List.append_assoc ..),
        List.mem_append_right _ update⟩
    · obtain ⟨actions, _, extended⟩ := sendData_pressed idle taken first
      obtain ⟨more, final⟩ := sendAll_extends rest
      refine ⟨_, final.trans ((congrArg (· ++ more) extended).trans (List.append_assoc ..)), ?_⟩
      exact List.mem_append_left _ (List.mem_append_right _ (List.mem_singleton_self _))

end TcpConnection

/-- An idle connection whose channel carries the connection itself. -/
structure AtRest (connection : TcpConnection) (number : Nat) : Prop where
  output : connection.outputBuffer.Valid
  idle : connection.idle = true
  data : connection.chan.data = .tcpConnection number

theorem AtRest.record (rest : AtRest connection number) (actions : List Action) :
    AtRest (connection.record actions) number :=
  ⟨rest.output, rest.idle, rest.data⟩

theorem atRest_new (number eventLoop : Nat) (connectedFd : Int) :
    AtRest (.new number eventLoop connectedFd) number := by
  refine ⟨Buffer.new_valid, ?_, rfl⟩
  have empty : Buffer.new.readable = 0 := by
    rw [Buffer.new_valid.readable_eq, Buffer.new_contents]
    rfl
  have off : (connectionChannel number connectedFd).writeEventIsEnabled = false := by
    simp [Channel.writeEventIsEnabled, connectionChannel, eventRead, eventWrite]
  change (!(connectionChannel number connectedFd).writeEventIsEnabled &&
    Buffer.new.readable == 0) = true
  rw [empty, off]
  rfl

/-- Nothing is queued, so the write event changes nothing but the trace. -/
theorem AtRest.handleWrite (rest : AtRest connection number) (result : WriteResult)
    (completed : TcpConnection → Except Fault TcpConnection) :
    connection.handleWrite completed result = .ok (connection.record [.write []]) := by
  have empty := TcpConnection.idle_contents rest.output rest.idle
  unfold TcpConnection.handleWrite
  rw [rest.output.readableBlock_eq, ok_bind, empty]
  cases result with
  | failed errno => rfl
  | wrote count =>
    have none : min count ([] : Bytes).length = 0 := Nat.min_zero count
    simp only [none, Nat.lt_irrefl, gt_iff_lt, ↓reduceIte, List.take_nil]
    rfl

namespace World

variable {world next : World} {number eventLoop : Nat} {actions : List Action}

/-- Every connection is at rest and has a loop, and every operation so far was queued on
the loop of its channel. -/
structure Settled (world : World) : Prop where
  resting : ∀ number connection, world.connections[number]? = some connection →
    AtRest connection number
  reached : ∀ operation ∈ world.queued,
    world.registration operation.2.channel = some operation.1

private theorem performAll_local (silent : TcpConnection.Local actions) :
    world.performAll number eventLoop actions = .ok world := by
  induction actions with
  | nil => rfl
  | cons action actions ih =>
    have here := silent action (List.mem_cons_self ..)
    have others := ih fun other member => silent other (List.mem_cons_of_mem _ member)
    have first : world.perform number eventLoop action = .ok world := by
      cases action with
      | update target => cases here
      | remove queued => cases here
      | _ => rfl
    exact bind_eq_ok.mpr ⟨world, first, others⟩

/-- A change of the write interest comes through only to a loop. -/
private theorem performAll_update {target : Pointer} (member : .update target ∈ actions)
    (success : world.performAll number eventLoop actions = .ok next) :
    ∃ loop, target = .eventLoop loop := by
  induction actions generalizing world with
  | nil => cases member
  | cons action actions ih =>
    obtain ⟨middle, first, rest⟩ := bind_eq_ok.mp success
    rcases List.mem_cons.mp member with here | there
    · subst here
      cases target with
      | eventLoop loop => exact ⟨loop, rfl⟩
      | null => cases first
      | tcpServer other => cases first
      | tcpConnection other => cases first
    · exact ih there rest

private theorem performAll_append (success : world.performAll number eventLoop first = .ok next)
    (second : List Action) : world.performAll number eventLoop (first ++ second) =
      next.performAll number eventLoop second := by
  induction first generalizing world with
  | nil =>
    cases success
    rfl
  | cons action first ih =>
    obtain ⟨middle, performed, rest⟩ := bind_eq_ok.mp success
    change (world.perform number eventLoop action >>= fun world =>
      world.performAll number eventLoop (first ++ second)) = _
    rw [performed, ok_bind]
    exact ih rest

/-- A connection that goes on without reaching a loop. -/
theorem advance_local (world : World) (number : Nat) (connection : TcpConnection)
    (silent : TcpConnection.Local actions) :
    world.advance number connection (connection.record actions) =
      .ok { world with connections := world.connections.set number (connection.record actions) } := by
  unfold advance
  have new : (connection.record actions).trace.drop connection.trace.length = actions :=
    List.drop_left
  rw [new]
  exact performAll_local silent

/-- A connection that asks for the write interest of its channel fails. -/
theorem advance_pressed {connection after : TcpConnection} (rest : AtRest connection number)
    (extended : after.trace = connection.trace ++ actions)
    (update : .update connection.chan.data ∈ actions)
    (success : world.advance number connection after = .ok next) : False := by
  unfold advance at success
  rw [extended, List.drop_left] at success
  obtain ⟨loop, same⟩ := performAll_update update success
  rw [rest.data] at same
  cases same

private theorem registration_wakeup (world : World) (loop : Nat) :
    world.registration (.wakeup loop) = if loop < world.loops.length then some loop else none := rfl

private theorem registration_listening (world : World) (server : Nat) :
    world.registration (.listening server) = world.servers[server]?.map TcpServer.eventLoop := rfl

private theorem registration_connection (world : World) (connection : Nat) :
    world.registration (.connection connection) =
      world.connections[connection]?.map TcpConnection.eventLoop := rfl

private theorem registration_queue (world : World) (eventLoop : Nat) (channel other : ChannelRef)
    (type : Nat) :
    (world.doChannelEvent eventLoop channel type).registration other = world.registration other := by
  cases other with
  | wakeup loop => rfl
  | listening server => rfl
  | connection connection => rfl

/-- An operation queued on the loop of its channel keeps the world settled. -/
theorem Settled.queue (settled : world.Settled) {channel : ChannelRef}
    (here : world.registration channel = some eventLoop) (type : Nat) :
    (world.doChannelEvent eventLoop channel type).Settled := by
  constructor
  · exact settled.resting
  · intro operation member
    rw [registration_queue]
    rcases List.mem_append.mp member with early | new
    · exact settled.reached operation early
    · rw [List.mem_singleton.mp new]
      exact here

/-- The objects so far keep their loops when objects are added or connections go on. -/
structure Grows (world next : World) : Prop where
  registration : ∀ channel loop, world.registration channel = some loop →
    next.registration channel = some loop
  queued : next.queued = world.queued

theorem Settled.grow (settled : world.Settled) (grows : Grows world next)
    (resting : ∀ number connection, next.connections[number]? = some connection →
      AtRest connection number) : next.Settled := by
  constructor
  · exact resting
  · intro operation
    rw [grows.queued]
    exact fun member => grows.registration _ _ (settled.reached operation member)

private theorem grows_loops (world : World) (channel : Channel) :
    Grows world { world with loops := world.loops ++ [channel] } := by
  refine ⟨?_, rfl⟩
  intro other loop known
  cases other with
  | wakeup number =>
    rw [registration_wakeup] at known ⊢
    by_cases inside : number < world.loops.length
    · rw [if_pos inside] at known
      rw [if_pos (by rw [List.length_append]; exact Nat.lt_add_right _ inside)]
      exact known
    · rw [if_neg inside] at known
      cases known
  | listening number => exact known
  | connection number => exact known

private theorem grows_servers (world : World) (server : TcpServer) :
    Grows world { world with servers := world.servers ++ [server] } := by
  refine ⟨?_, rfl⟩
  intro other loop known
  cases other with
  | wakeup number => exact known
  | listening number =>
    obtain ⟨found, place, same⟩ := Option.map_eq_some_iff.mp known
    have inside := (List.getElem?_eq_some_iff.mp place).1
    exact Option.map_eq_some_iff.mpr
      ⟨found, (List.getElem?_append_left inside).trans place, same⟩
  | connection number => exact known

private theorem grows_connections (world : World) (connection : TcpConnection) :
    Grows world { world with connections := world.connections ++ [connection] } := by
  refine ⟨?_, rfl⟩
  intro other loop known
  cases other with
  | wakeup number => exact known
  | listening number => exact known
  | connection number =>
    obtain ⟨found, place, same⟩ := Option.map_eq_some_iff.mp known
    have inside := (List.getElem?_eq_some_iff.mp place).1
    exact Option.map_eq_some_iff.mpr
      ⟨found, (List.getElem?_append_left inside).trans place, same⟩

/-- A connection that goes on stays on its loop. -/
private theorem grows_set {connection after : TcpConnection}
    (place : world.connections[number]? = some connection)
    (same : after.eventLoop = connection.eventLoop) :
    Grows world { world with connections := world.connections.set number after } := by
  refine ⟨?_, rfl⟩
  intro other loop known
  cases other with
  | wakeup number => exact known
  | listening number => exact known
  | connection other =>
    by_cases here : number = other
    · subst other
      have inside := (List.getElem?_eq_some_iff.mp place).1
      rw [registration_connection, place, Option.map_some, ← same] at known
      rw [registration_connection, List.getElem?_set_self inside]
      exact known
    · rw [registration_connection] at known ⊢
      rw [List.getElem?_set_ne here]
      exact known

/-- A connection that goes on at rest keeps the world settled. -/
theorem Settled.set (settled : world.Settled) {connection : TcpConnection}
    (place : world.connections[number]? = some connection) (after : TcpConnection)
    (same : after.eventLoop = connection.eventLoop) (rest : AtRest after number) :
    ({ world with connections := world.connections.set number after } : World).Settled := by
  apply settled.grow (grows_set place same)
  intro other found there
  by_cases here : number = other
  · subst other
    have inside := (List.getElem?_eq_some_iff.mp place).1
    change (world.connections.set number after)[number]? = some found at there
    rw [List.getElem?_set_self inside] at there
    cases there
    exact rest
  · change (world.connections.set number after)[other]? = some found at there
    rw [List.getElem?_set_ne here] at there
    exact settled.resting other found there

theorem empty_settled : empty.Settled := by
  constructor
  · intro number connection place
    cases place
  · intro operation member
    cases member

theorem newLoop_settled (settled : world.Settled) (fd : Int) : (world.newLoop fd).Settled := by
  have grown := settled.grow (grows_loops world (wakeupChannel world.loops.length fd))
    settled.resting
  apply grown.queue
  rw [registration_wakeup, if_pos]
  rw [List.length_append]
  exact Nat.lt_succ_self _

theorem startServer_settled (settled : world.Settled) (eventLoop : Nat) (listenFd : Int) :
    (world.startServer eventLoop listenFd).Settled := by
  have grown := settled.grow (grows_servers world
    { eventLoop, chan := listeningChannel world.servers.length listenFd }) settled.resting
  apply grown.queue
  rw [registration_listening]
  exact congrArg (Option.map TcpServer.eventLoop) List.getElem?_concat_length

/-- The world with a new connection, before its first callback. -/
private theorem settled_concat (settled : world.Settled) (eventLoop : Nat) (connectedFd : Int) :
    ({ world with connections := world.connections ++
      [.new world.connections.length eventLoop connectedFd] } : World).Settled := by
  apply settled.grow (grows_connections ..)
  intro number connection place
  by_cases inside : number < world.connections.length
  · change (world.connections ++ [_])[number]? = some connection at place
    rw [List.getElem?_append_left inside] at place
    exact settled.resting number connection place
  · have last := (List.getElem?_eq_some_iff.mp place).1
    rw [List.length_append, List.length_singleton] at last
    have same : number = world.connections.length := by omega
    subst number
    change (world.connections ++ [_])[world.connections.length]? = some connection at place
    rw [List.getElem?_concat_length] at place
    cases place
    exact atRest_new _ eventLoop connectedFd

/-- A connection whose first sends are taken at once is added to its loop. -/
theorem accept_ok (world : World) (eventLoop : Nat) (connectedFd : Int)
    {sends : List (Bytes × WriteResult)} (all : ∀ send ∈ sends, TakenAtOnce send.1 send.2) :
    ∃ after, AtRest after world.connections.length ∧ after.eventLoop = eventLoop ∧
      world.accept eventLoop connectedFd sends = .ok
        (({ world with
          connections :=
            (world.connections ++ [TcpConnection.new world.connections.length eventLoop
              connectedFd]).set world.connections.length after } : World).doChannelEvent eventLoop
                (.connection world.connections.length) 1) := by
  have rest := atRest_new world.connections.length eventLoop connectedFd
  obtain ⟨actions, silent, sent⟩ := TcpConnection.sendAll_taken rest.idle all
  refine ⟨_, rest.record actions, rfl, ?_⟩
  exact bind_eq_ok.mpr ⟨_, sent, bind_eq_ok.mpr ⟨_, advance_local _ _ _ silent, rfl⟩⟩

theorem accept_settled (settled : world.Settled) (eventLoop : Nat) (connectedFd : Int)
    {sends : List (Bytes × WriteResult)} (all : ∀ send ∈ sends, TakenAtOnce send.1 send.2) :
    ∃ next, world.accept eventLoop connectedFd sends = .ok next ∧ next.Settled := by
  obtain ⟨after, rest, loop, accepted⟩ := accept_ok world eventLoop connectedFd all
  have place : (world.connections ++ [TcpConnection.new world.connections.length eventLoop
      connectedFd])[world.connections.length]? =
        some (.new world.connections.length eventLoop connectedFd) :=
    List.getElem?_concat_length ..
  have completed := (settled_concat settled eventLoop connectedFd).set place after loop rest
  refine ⟨_, accepted, completed.queue ?_ 1⟩
  rw [registration_connection]
  change ((world.connections ++ [_]).set world.connections.length _)[_]?.map _ = _
  rw [List.getElem?_set_self (List.getElem?_eq_some_iff.mp place).1]
  exact congrArg some loop

theorem accept_pressed {sends : List (Bytes × WriteResult)} {connectedFd : Int}
    (short : ¬ ∀ send ∈ sends, TakenAtOnce send.1 send.2)
    (success : world.accept eventLoop connectedFd sends = .ok next) : False := by
  have rest := atRest_new world.connections.length eventLoop connectedFd
  obtain ⟨completed, sent, called⟩ := bind_eq_ok.mp success
  obtain ⟨middle, advanced, _⟩ := bind_eq_ok.mp called
  obtain ⟨actions, extended, update⟩ := TcpConnection.sendAll_pressed rest.idle short sent
  exact advance_pressed rest extended update advanced

theorem worldStep_accept {tcpServer : Nat}
    (present : tcpServer < world.servers.length ∧ eventLoop < world.loops.length)
    (connectedFd : Int) (sends : List (Bytes × WriteResult)) :
    worldStep world (.accept tcpServer eventLoop connectedFd sends) =
      world.accept eventLoop connectedFd sends :=
  if_pos present

theorem worldStep_output {connection : TcpConnection}
    (place : world.connections[number]? = some connection) (event : OutputEvent) :
    worldStep world (.output number event) =
      outputStep connection event >>= fun after => world.advance number connection after := by
  simp only [worldStep, place]

theorem worldStep_close {connection : TcpConnection}
    (place : world.connections[number]? = some connection) :
    worldStep world (.close number) =
      world.advance number connection (connection.handleConnectionClosed id) := by
  simp only [worldStep, place]

theorem output_settled (settled : world.Settled) {connection : TcpConnection}
    (place : world.connections[number]? = some connection) {event : OutputEvent}
    (taken : Unpressed world (.output number event)) :
    ∃ next, worldStep world (.output number event) = .ok next ∧ next.Settled := by
  have rest := settled.resting number connection place
  have unpressed := taken (List.getElem?_eq_some_iff.mp place).1
  have silent : ∃ actions, TcpConnection.Local actions ∧
      outputStep connection event = .ok (connection.record actions) := by
    cases event with
    | sendData data result =>
      obtain ⟨sent, actions, silent, success⟩ := TcpConnection.sendData_taken rest.idle unpressed
      exact ⟨actions, silent, bind_eq_ok.mpr ⟨_, success, rfl⟩⟩
    | sendBuffer buffer result =>
      obtain ⟨data, block, all⟩ := unpressed
      obtain ⟨sent, actions, silent, success⟩ := TcpConnection.sendData_taken rest.idle all
      have given : connection.sendBuffer buffer result = .ok (sent, connection.record actions,
          { buffer with readIndex := buffer.readIndex + buffer.readable }) :=
        bind_eq_ok.mpr ⟨data, block, bind_eq_ok.mpr ⟨_, success, rfl⟩⟩
      exact ⟨actions, silent, bind_eq_ok.mpr ⟨_, given, rfl⟩⟩
    | handleWrite result sends =>
      refine ⟨[.write []], ?_, rest.handleWrite result fun connection => connection.sendAll sends⟩
      intro action member
      rw [List.mem_singleton.mp member]
      rfl
  obtain ⟨actions, quiet, success⟩ := silent
  refine ⟨_, ?_, settled.set place (connection.record actions) rfl (rest.record actions)⟩
  rw [worldStep_output place]
  exact bind_eq_ok.mpr ⟨_, success, advance_local world number connection quiet⟩

theorem output_pressed (settled : world.Settled) {connection : TcpConnection}
    (place : world.connections[number]? = some connection) {event : OutputEvent}
    (pressed : ¬ Unpressed world (.output number event))
    (success : worldStep world (.output number event) = .ok next) : False := by
  have rest := settled.resting number connection place
  rw [worldStep_output place] at success
  obtain ⟨after, sent, advanced⟩ := bind_eq_ok.mp success
  cases event with
  | sendData data result =>
    obtain ⟨⟨count, middle⟩, called, same⟩ := bind_eq_ok.mp sent
    cases same
    have missed : ¬ TakenAtOnce data result := fun all => pressed fun _ => all
    obtain ⟨actions, _, extended⟩ := TcpConnection.sendData_pressed rest.idle missed called
    exact advance_pressed rest extended
      (List.mem_append_right _ (List.mem_singleton_self _)) advanced
  | sendBuffer buffer result =>
    obtain ⟨⟨count, middle, consumed⟩, called, same⟩ := bind_eq_ok.mp sent
    cases same
    obtain ⟨data, block, inner⟩ := bind_eq_ok.mp called
    obtain ⟨⟨size, other⟩, given, equal⟩ := bind_eq_ok.mp inner
    cases equal
    have missed : ¬ TakenAtOnce data result := fun all => pressed fun _ => ⟨data, block, all⟩
    obtain ⟨actions, _, extended⟩ := TcpConnection.sendData_pressed rest.idle missed given
    exact advance_pressed rest extended
      (List.mem_append_right _ (List.mem_singleton_self _)) advanced
  | handleWrite result sends => exact pressed fun _ => trivial

/-- Closing queues the removal on the loop of the connection. -/
theorem close_settled (settled : world.Settled) (number : Nat) :
    ∃ next, worldStep world (.close number) = .ok next ∧ next.Settled := by
  cases place : world.connections[number]? with
  | none => exact ⟨world, by simp only [worldStep, place], settled⟩
  | some connection =>
    have rest := settled.resting number connection place
    have closed : AtRest (connection.handleConnectionClosed id) number :=
      ⟨rest.output, rest.idle, rest.data⟩
    have gone := settled.set place (connection.handleConnectionClosed id) rfl closed
    have new : (connection.handleConnectionClosed id).trace.drop connection.trace.length =
        [.remove connection.outputBuffer.contents, .closed] := List.drop_left
    have here : ({ world with
        connections := world.connections.set number (connection.handleConnectionClosed id)
        } : World).registration (.connection number) = some connection.eventLoop := by
      rw [registration_connection]
      exact congrArg (Option.map TcpConnection.eventLoop)
        (List.getElem?_set_self (List.getElem?_eq_some_iff.mp place).1)
    refine ⟨_, ?_, gone.queue here 2⟩
    rw [worldStep_close place]
    unfold advance
    rw [new]
    rfl

theorem worldStep_settled (settled : world.Settled) {event : WorldEvent}
    (unpressed : Unpressed world event) :
    ∃ next, worldStep world event = .ok next ∧ next.Settled := by
  cases event with
  | newLoop fd => exact ⟨_, rfl, newLoop_settled settled fd⟩
  | startServer eventLoop listenFd =>
    by_cases present : eventLoop < world.loops.length
    · exact ⟨_, if_pos present, startServer_settled settled eventLoop listenFd⟩
    · exact ⟨world, if_neg present, settled⟩
  | accept tcpServer eventLoop connectedFd sends =>
    by_cases present : tcpServer < world.servers.length ∧ eventLoop < world.loops.length
    · obtain ⟨next, success, kept⟩ :=
        accept_settled settled eventLoop connectedFd (unpressed present)
      exact ⟨next, (worldStep_accept present ..).trans success, kept⟩
    · exact ⟨world, if_neg present, settled⟩
  | output number event =>
    cases place : world.connections[number]? with
    | none => exact ⟨world, by simp only [worldStep, place], settled⟩
    | some connection => exact output_settled settled place unpressed
  | close number => exact close_settled settled number

theorem worldStep_pressed (settled : world.Settled) {event : WorldEvent}
    (pressed : ¬ Unpressed world event) (success : worldStep world event = .ok next) : False := by
  cases event with
  | accept tcpServer eventLoop connectedFd sends =>
    obtain ⟨present, short⟩ := Classical.not_imp.mp pressed
    exact accept_pressed short ((worldStep_accept present ..).symm.trans success)
  | output number event =>
    cases place : world.connections[number]? with
    | none =>
      apply pressed
      intro inside
      rw [List.getElem?_eq_getElem inside] at place
      cases place
    | some connection => exact output_pressed settled place pressed success
  | _ => exact pressed trivial

/-- Data that is not taken at once makes the connection stand for a loop. -/
theorem send_misses_loop {connection : TcpConnection} (rest : AtRest connection number)
    (place : world.connections[number]? = some connection) {data : Bytes} {result : WriteResult}
    (small : data.length < 2 ^ 31) (short : ¬ TakenAtOnce data result) :
    worldStep world (.output number (.sendData data result)) = .error .notEventLoop := by
  obtain ⟨sent, after, success⟩ := TcpConnection.sendData_succeeds rest.output small result
  obtain ⟨actions, silent, extended⟩ := TcpConnection.sendData_pressed rest.idle short success
  have called : outputStep connection (.sendData data result) = .ok after :=
    bind_eq_ok.mpr ⟨_, success, rfl⟩
  rw [worldStep_output place, called, ok_bind]
  unfold advance
  rw [extended, List.drop_left, performAll_append (performAll_local silent), rest.data]
  rfl

end World

/-- A run takes no object but a loop for a loop, and queues every operation on the loop of
its channel, exactly when it asks no socket for more than it takes. -/
theorem operations_reach_loop_iff (events : List WorldEvent) :
    (∃ final, run worldStep .empty events = .ok final ∧
        ∀ operation ∈ final.queued, final.registration operation.2.channel = some operation.1) ↔
      Along worldStep Unpressed .empty events := by
  apply run_iff_along (fun world event settled quiet => World.worldStep_settled settled quiet)
    (fun world event next settled pressed success => World.worldStep_pressed settled pressed success)
  · exact fun world event next impossible => impossible.elim
  · exact fun world settled => settled.reached
  · exact fun world impossible => impossible.elim
  · exact World.empty_settled

/-- The first byte meets a full socket, and the connection is taken for a loop. -/
theorem blocked_send_misses_loop :
    run worldStep .empty [.newLoop 3, .startServer 0 4, .accept 0 0 5 [],
      .output 0 (.sendData (ascii "a") (.failed .wouldBlock))] = .error .notEventLoop := by
  have first : worldStep .empty (.newLoop 3) = .ok (World.empty.newLoop 3) := rfl
  have second : worldStep (World.empty.newLoop 3) (.startServer 0 4) =
      .ok ((World.empty.newLoop 3).startServer 0 4) := rfl
  have silent : ∀ send ∈ ([] : List (Bytes × WriteResult)), TakenAtOnce send.1 send.2 := nofun
  obtain ⟨after, rest, _, accepted⟩ :=
    World.accept_ok ((World.empty.newLoop 3).startServer 0 4) 0 5 silent
  have present : 0 < ((World.empty.newLoop 3).startServer 0 4).servers.length ∧
      0 < ((World.empty.newLoop 3).startServer 0 4).loops.length := by decide
  have third := (World.worldStep_accept present 5 []).trans accepted
  rw [run_cons first, run_cons second, run_cons third]
  have settled : AtRest after 0 := rest
  unfold run
  rw [World.send_misses_loop settled rfl (by decide) (by simp [TakenAtOnce, ascii])]

end Yolanda.App
