import Yolanda.App.EventLoop
import Yolanda.App.Rot13Echo
import Yolanda.Foundation.Loop

/-! The server of `epoll01.c`: one pass over the events of a batch, in which the loops over the
characters and over the reads use the variables of the loop over the events. -/

namespace Yolanda.Chapters

open App (EpollEvent epollIn epollErr epollHup rot13Char)
open Foundation

/-- `EPOLLET` -/
def epollEt : BitVec 32 := 0x80000000

/-- What `read` gives for a buffer of 512 characters. -/
inductive ReadResult where
  | some (bytes : Bytes) (positive : bytes ≠ []) (fits : bytes.length ≤ 512)
  | closed
  /-- `EAGAIN` -/
  | again
  | failed

/-- What the calls answer that are made for one event. -/
structure Answers where
  accept : Option Int
  control : Bool
  read : Nat → ReadResult
  write : Nat → Bool

/-- What a pass does to descriptors. -/
inductive Effect where
  | close (fd : Int)
  | makeNonblocking (fd : Int)
  | add (fd : Int) (events : BitVec 32)
  | write (fd : Int) (bytes : Bytes)
  deriving DecidableEq

/-- Why a pass does not come to its end. -/
inductive PassStop where
  | acceptFailed
  | controlFailed
  | readError
  | writeError
  /-- An access behind the events of the batch. -/
  | memory
  | unfinished
  deriving DecidableEq

/-- The inner loop: its socket, the event it is for, and the calls of `read` it has made. -/
structure Reading where
  socketFd : Int
  visit : Nat
  turn : Nat

/-- The variables of `main`, the indices of the events that were visited, and the effects. -/
structure EpollPass where
  i : Nat
  n : Int
  reading : Option Reading
  visited : List Nat
  effects : List Effect

namespace EpollPass

/-- The pass behind the return of `epoll_wait`. -/
def start (events : List EpollEvent) : EpollPass where
  i := 0
  n := events.length
  reading := none
  visited := []
  effects := []

/-- The first test of the loop. -/
def refused (event : EpollEvent) : Bool :=
  event.events &&& epollErr ≠ 0 || event.events &&& epollHup ≠ 0 || event.events &&& epollIn = 0

/-- The event is that of a socket to read from. -/
def isConnection (listenFd : Int) (event : EpollEvent) : Bool :=
  !refused event && listenFd ≠ event.fd

/-- The loop over the events comes to its next round. -/
def nextRound (pass : EpollPass) (effects : List Effect) : EpollPass :=
  { pass with
    i := pass.i + 1
    reading := none
    effects := pass.effects ++ effects }

def visit (pass : EpollPass) : EpollPass :=
  { pass with visited := pass.visited ++ [pass.i] }

/-- The body of the loop over the events, up to the inner loop. -/
def dispatchEvent (listenFd : Int) (answers : Answers) (event : EpollEvent) (pass : EpollPass) :
    Except PassStop EpollPass :=
  if refused event then .ok (pass.visit.nextRound [.close event.fd])
  else if listenFd = event.fd then
    match answers.accept with
    | none => .error .acceptFailed
    | some fd =>
      if answers.control then
        .ok (pass.visit.nextRound [.makeNonblocking fd, .add fd (epollIn ||| epollEt)])
      else .error .controlFailed
  else .ok { pass.visit with reading := some ⟨event.fd, pass.visited.length, 0⟩ }

/-- The body of the inner loop. What `read` returns is stored in `n`, and the loop over the
characters leaves `i` at their number. -/
def readSocket (answers : Answers) (reading : Reading) (pass : EpollPass) :
    Except PassStop EpollPass :=
  match answers.read reading.turn with
  | .failed => .error .readError
  | .again => .ok ({ pass with n := -1 }.nextRound [])
  | .closed => .ok ({ pass with n := 0 }.nextRound [.close reading.socketFd])
  | .some bytes _ _ =>
    if answers.write reading.turn then
      .ok { pass with
        i := bytes.length
        n := bytes.length
        reading := some { reading with turn := reading.turn + 1 }
        effects := pass.effects ++ [.write reading.socketFd (bytes.map rot13Char)] }
    else .error .writeError

/-- A pass. Its state is that of the two loops together. -/
def loop (listenFd : Int) (events : List EpollEvent) (answers : Nat → Answers) :
    Loop EpollPass PassStop where
  done pass := pass.reading.isNone && decide (pass.n ≤ pass.i)
  body pass :=
    match pass.reading with
    | some reading => readSocket (answers reading.visit) reading pass
    | none =>
      match events[pass.i]? with
      | none => .error .memory
      | some event => dispatchEvent listenFd (answers pass.visited.length) event pass
  unfinished := .unfinished

end EpollPass

/-- The reads from the given one on come to an end, and all writes are accepted. -/
inductive Answers.DrainedFrom (answers : Answers) : Nat → Prop where
  | ends (result : answers.read turn = .closed ∨ answers.read turn = .again) :
    DrainedFrom answers turn
  | more (result : answers.read turn = .some bytes positive fits)
    (accepted : answers.write turn = true) (later : DrainedFrom answers (turn + 1)) :
    DrainedFrom answers turn

namespace EpollPass

variable {listenFd : Int} {events : List EpollEvent} {answers : Nat → Answers}
variable {pass final : EpollPass} {index : Nat} {event : EpollEvent}

/-- What the pass needs to come past an event. -/
def Answered (listenFd : Int) (answers : Answers) (event : EpollEvent) : Prop :=
  refused event = false → listenFd = event.fd → answers.accept.isSome ∧ answers.control = true

/-- An event that is not of a connection takes the loop to its next round. -/
theorem dispatchEvent_other {answers : Answers} (other : isConnection listenFd event = false)
    (answered : Answered listenFd answers event) :
    ∃ effects, dispatchEvent listenFd answers event pass = .ok (pass.visit.nextRound effects) := by
  cases refuses : refused event with
  | true => exact ⟨_, by rw [dispatchEvent, if_pos refuses]⟩
  | false =>
    have listening : listenFd = event.fd := by simpa [isConnection, refuses] using other
    obtain ⟨accepts, controls⟩ := answered refuses listening
    obtain ⟨fd, accepted⟩ := Option.isSome_iff_exists.mp accepts
    refine ⟨[.makeNonblocking fd, .add fd (epollIn ||| epollEt)], ?_⟩
    simp [dispatchEvent, refuses, listening, accepted, controls]

theorem dispatchEvent_connection {answers : Answers}
    (connection : isConnection listenFd event = true) :
    dispatchEvent listenFd answers event pass =
      .ok { pass.visit with reading := some ⟨event.fd, pass.visited.length, 0⟩ } := by
  obtain ⟨taken, other⟩ : refused event = false ∧ ¬ listenFd = event.fd := by
    simpa [isConnection] using connection
  rw [dispatchEvent, if_neg (by simp [taken]), if_neg other]

/-- Without the answers it needs the pass ends the process. -/
theorem dispatchEvent_unanswered {answers : Answers}
    (unanswered : ¬ Answered listenFd answers event) (next : EpollPass) :
    dispatchEvent listenFd answers event pass ≠ .ok next := by
  intro success
  apply unanswered
  intro taken listening
  cases accepted : answers.accept with
  | none => simp [dispatchEvent, taken, listening, accepted] at success
  | some fd =>
    refine ⟨rfl, ?_⟩
    by_contra fails
    simp [dispatchEvent, taken, listening, accepted, fails] at success

/-- The inner loop ends with a value of `n` at which the outer one ends. -/
theorem readSocket_ends {answers : Answers} {reading : Reading}
    (result : answers.read reading.turn = .closed ∨ answers.read reading.turn = .again) :
    ∃ next, readSocket answers reading pass = .ok next ∧ next.reading = none ∧ next.n ≤ 0 ∧
      next.visited = pass.visited := by
  rcases result with closed | again
  · have success : readSocket answers reading pass =
        .ok ({ pass with n := 0 }.nextRound [.close reading.socketFd]) := by rw [readSocket, closed]
    exact ⟨_, success, rfl, Int.le_refl 0, rfl⟩
  · have success : readSocket answers reading pass =
        .ok ({ pass with n := -1 }.nextRound []) := by rw [readSocket, again]
    exact ⟨_, success, rfl, Int.negSucc_le_zero 0, rfl⟩

theorem readSocket_more {answers : Answers} {reading : Reading} {bytes : Bytes}
    {positive : bytes ≠ []} {fits : bytes.length ≤ 512}
    (result : answers.read reading.turn = .some bytes positive fits)
    (accepted : answers.write reading.turn = true) :
    ∃ next, readSocket answers reading pass = .ok next ∧
      next.reading = some { reading with turn := reading.turn + 1 } ∧
      next.visited = pass.visited := by
  have success : readSocket answers reading pass = .ok { pass with
      i := bytes.length
      n := bytes.length
      reading := some { reading with turn := reading.turn + 1 }
      effects := pass.effects ++ [.write reading.socketFd (bytes.map rot13Char)] } := by
    rw [readSocket, result]
    simp only [accepted, if_true]
  exact ⟨_, success, rfl, rfl⟩

/-- In the inner loop the process ends, or the loop ends, or it reads on. -/
theorem readSocket_cases (answers : Answers) (reading : Reading) (pass : EpollPass) :
    (∃ stop, readSocket answers reading pass = .error stop) ∨
      (answers.read reading.turn = .closed ∨ answers.read reading.turn = .again) ∨
      ∃ bytes positive fits, answers.read reading.turn = .some bytes positive fits ∧
        answers.write reading.turn = true := by
  cases result : answers.read reading.turn with
  | failed =>
    left
    exact ⟨.readError, by rw [readSocket, result]⟩
  | again => exact .inr (.inl (.inr rfl))
  | closed => exact .inr (.inl (.inl rfl))
  | some bytes positive fits =>
    cases accepted : answers.write reading.turn with
    | true => exact .inr (.inr ⟨bytes, positive, fits, rfl, rfl⟩)
    | false =>
      left
      refine ⟨.writeError, ?_⟩
      rw [readSocket, result]
      simp only [accepted]
      rfl

/-- The pass is before an event, and has visited the events before it. -/
structure Before (events : List EpollEvent) (index : Nat) (pass : EpollPass) : Prop where
  i : pass.i = index
  n : pass.n = events.length
  reading : pass.reading = none
  visited : pass.visited = List.range index

namespace Before

theorem start (events : List EpollEvent) : Before events 0 (start events) :=
  ⟨rfl, rfl, rfl, rfl⟩

/-- Behind the last event the pass ends. -/
theorem done (before : Before events index pass) (all : events.length ≤ index) :
    (loop listenFd events answers).done pass = true := by
  simp [loop, before.reading, before.n, before.i, all]

theorem running (before : Before events index pass) (found : events[index]? = some event) :
    (loop listenFd events answers).done pass = false := by
  obtain ⟨bound, _⟩ := List.getElem?_eq_some_iff.mp found
  simp [loop, before.reading, before.n, before.i, bound]

theorem body (before : Before events index pass) (found : events[index]? = some event) :
    (loop listenFd events answers).body pass =
      dispatchEvent listenFd (answers index) event pass := by
  have visit : pass.visited.length = index := by rw [before.visited, List.length_range]
  simp only [loop, before.reading, before.i, found, visit]

theorem visit (before : Before events index pass) :
    pass.visit.visited = List.range (index + 1) := by
  rw [EpollPass.visit, before.visited, before.i, List.range_succ]

theorem nextRound (before : Before events index pass) (effects : List Effect) :
    Before events (index + 1) (pass.visit.nextRound effects) :=
  ⟨congrArg (· + 1) before.i, before.n, rfl, before.visit⟩

/-- An event that is not of a connection is visited, and the next one is next. -/
theorem advance (before : Before events index pass) (found : events[index]? = some event)
    (other : isConnection listenFd event = false)
    (answered : Answered listenFd (answers index) event) :
    ∃ next, (loop listenFd events answers).Step pass next ∧ Before events (index + 1) next := by
  obtain ⟨effects, success⟩ := @dispatchEvent_other _ pass _ _ other answered
  exact ⟨_, ⟨before.running found, (before.body found).trans success⟩, before.nextRound effects⟩

/-- At an event of a connection the inner loop begins. -/
theorem connect (before : Before events index pass) (found : events[index]? = some event)
    (connection : isConnection listenFd event = true) :
    ∃ next, (loop listenFd events answers).Step pass next ∧
      next.reading = some ⟨event.fd, index, 0⟩ ∧ next.visited = List.range (index + 1) := by
  have success := (before.body found).trans
    (@dispatchEvent_connection _ pass _ (answers index) connection)
  refine ⟨_, ⟨before.running found, success⟩, ?_, before.visit⟩
  simp only [before.visited, List.length_range]

end Before

section Reading

variable {reading : Reading}

theorem running_reading (inside : pass.reading = some reading) :
    (loop listenFd events answers).done pass = false := by
  simp [loop, inside]

theorem body_reading (inside : pass.reading = some reading) :
    (loop listenFd events answers).body pass = readSocket (answers reading.visit) reading pass := by
  simp only [loop, inside]

/-- Where the inner loop has ended the pass has. -/
theorem done_reading (outside : pass.reading = none) (small : pass.n ≤ 0) :
    (loop listenFd events answers).done pass = true := by
  have less : pass.n ≤ pass.i := Int.le_trans small (Int.natCast_nonneg _)
  simp [loop, outside, less]

/-- Once the reads of a connection have come to an end, the whole pass has. -/
theorem reading_returns (inside : pass.reading = some reading)
    (drained : (answers reading.visit).DrainedFrom reading.turn) :
    ∃ final, (loop listenFd events answers).Returns pass final ∧ final.visited = pass.visited := by
  generalize meant : answers reading.visit = given at drained
  generalize start : reading.turn = turn at drained
  induction drained generalizing pass reading with
  | ends result =>
    subst meant start
    obtain ⟨next, success, outside, small, visited⟩ := @readSocket_ends pass _ _ result
    have step : (loop listenFd events answers).Step pass next :=
      ⟨running_reading inside, (body_reading inside).trans success⟩
    exact ⟨next, .of_step step ⟨0, Loop.run_done (done_reading outside small) 0⟩, visited⟩
  | more result accepted later ih =>
    subst meant start
    obtain ⟨next, success, still, visited⟩ := @readSocket_more pass _ _ _ _ _ result accepted
    have step : (loop listenFd events answers).Step pass next :=
      ⟨running_reading inside, (body_reading inside).trans success⟩
    obtain ⟨final, returns, same⟩ := ih still rfl rfl
    exact ⟨final, returns.of_step step, same.trans visited⟩

/-- A pass that reads from a connection visits no further event. -/
theorem reading_drained (inside : pass.reading = some reading)
    (returns : (loop listenFd events answers).Returns pass final) :
    (answers reading.visit).DrainedFrom reading.turn ∧ final.visited = pass.visited := by
  obtain ⟨fuel, result⟩ := returns
  induction fuel generalizing pass reading with
  | zero => simp [Loop.run, running_reading inside] at result
  | succ fuel ih =>
    rcases readSocket_cases (answers reading.visit) reading pass with
      ⟨stop, fails⟩ | ends | ⟨bytes, positive, fits, got, accepted⟩
    · simp [Loop.run, running_reading inside, body_reading inside, fails] at result
    · obtain ⟨next, success, outside, small, visited⟩ := @readSocket_ends pass _ _ ends
      have step : (loop listenFd events answers).Step pass next :=
        ⟨running_reading inside, (body_reading inside).trans success⟩
      rw [Loop.run_step step, Loop.run_done (done_reading outside small)] at result
      cases result
      exact ⟨.ends ends, visited⟩
    · obtain ⟨next, success, still, visited⟩ := @readSocket_more pass _ _ _ _ _ got accepted
      have step : (loop listenFd events answers).Step pass next :=
        ⟨running_reading inside, (body_reading inside).trans success⟩
      rw [Loop.run_step step] at result
      obtain ⟨drained, same⟩ := ih still result
      exact ⟨.more got accepted drained, same.trans visited⟩

end Reading

/-- The event does not keep the pass from the events behind it, nor from its end. -/
def Passable (listenFd : Int) (events : List EpollEvent) (answers : Nat → Answers) (index : Nat)
    (event : EpollEvent) : Prop :=
  if isConnection listenFd event then
    index + 1 = events.length ∧ (answers index).DrainedFrom 0
  else Answered listenFd (answers index) event

/-- From a place where all events to come are passable the pass visits them. -/
theorem Before.returns (before : Before events index pass) (inside : index ≤ events.length)
    (passable : ∀ later event, index ≤ later → events[later]? = some event →
      Passable listenFd events answers later event) :
    ∃ final, (loop listenFd events answers).Returns pass final ∧
      final.visited = List.range events.length := by
  obtain ⟨left, total⟩ := Nat.exists_eq_add_of_le inside
  induction left generalizing index pass with
  | zero =>
    refine ⟨pass, ⟨0, Loop.run_done (before.done (Nat.le_of_eq total)) 0⟩, ?_⟩
    rw [before.visited, total, Nat.add_zero]
  | succ left ih =>
    have bound : index < events.length := by omega
    have found := List.getElem?_eq_getElem bound
    have here := passable index _ (Nat.le_refl _) found
    cases kind : isConnection listenFd events[index] with
    | false =>
      rw [Passable, kind, if_neg Bool.false_ne_true] at here
      obtain ⟨next, step, later⟩ := before.advance found kind here
      obtain ⟨final, returns, visited⟩ := ih later bound
        (fun place event behind => passable place event (Nat.le_of_succ_le behind)) (by omega)
      exact ⟨final, returns.of_step step, visited⟩
    | true =>
      rw [Passable, kind, if_pos rfl] at here
      obtain ⟨next, step, inner, visited⟩ := before.connect found kind
      obtain ⟨final, returns, same⟩ := reading_returns inner here.2
      exact ⟨final, returns.of_step step, by rw [same, visited, here.1]⟩

/-- A pass that returns has passed all events, or has left out those behind a connection. -/
theorem Before.outcome (before : Before events index pass) (inside : index ≤ events.length)
    (returns : (loop listenFd events answers).Returns pass final) :
    (∃ last, last < events.length ∧ final.visited = List.range last) ∨
      ∀ later event, index ≤ later → events[later]? = some event →
        Passable listenFd events answers later event := by
  obtain ⟨left, total⟩ := Nat.exists_eq_add_of_le inside
  induction left generalizing index pass with
  | zero =>
    right
    intro later event behind found
    obtain ⟨bound, _⟩ := List.getElem?_eq_some_iff.mp found
    omega
  | succ left ih =>
    have bound : index < events.length := by omega
    have found := List.getElem?_eq_getElem bound
    have onward (here : Passable listenFd events answers index events[index])
        (rest : ∀ later event, index + 1 ≤ later → events[later]? = some event →
          Passable listenFd events answers later event) (later : Nat) (event : EpollEvent)
        (behind : index ≤ later) (place : events[later]? = some event) :
        Passable listenFd events answers later event := by
      rcases Nat.eq_or_lt_of_le behind with rfl | further
      · cases found.symm.trans place
        exact here
      · exact rest later event further place
    cases kind : isConnection listenFd events[index] with
    | false =>
      by_cases answered : Answered listenFd (answers index) events[index]
      · obtain ⟨next, step, later⟩ := before.advance found kind answered
        refine (ih later bound (returns.step step) (by omega)).imp_right (onward ?_)
        rwa [Passable, kind, if_neg Bool.false_ne_true]
      · obtain ⟨next, step⟩ := returns.exists_step (before.running found)
        have success := (before.body found).symm.trans step.2
        exact absurd success (dispatchEvent_unanswered answered next)
    | true =>
      obtain ⟨next, step, inner, visited⟩ := before.connect found kind
      obtain ⟨drained, same⟩ := reading_drained inner (returns.step step)
      by_cases last : index + 1 = events.length
      · right
        refine onward ?_ ?_
        · rw [Passable, kind, if_pos rfl]
          exact ⟨last, drained⟩
        · intro later event behind place
          obtain ⟨within, _⟩ := List.getElem?_eq_some_iff.mp place
          omega
      · exact .inl ⟨index + 1, by omega, same.trans visited⟩

end EpollPass

/-- A pass over a batch visits each event once exactly when no event of a connection stands
before the last event, and the calls it makes do not end the process. -/
theorem events_visited_iff (listenFd : Int) (events : List EpollEvent) (answers : Nat → Answers) :
    (∃ final, (EpollPass.loop listenFd events answers).Returns (.start events) final ∧
      ∀ index, index < events.length → final.visited.count index = 1) ↔
      ∀ index event, events[index]? = some event →
        EpollPass.Passable listenFd events answers index event := by
  constructor
  · rintro ⟨final, returns, once⟩
    rcases (EpollPass.Before.start events).outcome (Nat.zero_le _) returns with
      ⟨last, short, visited⟩ | passable
    · have absent : final.visited.count last = 0 := by
        rw [visited]
        exact List.count_eq_zero_of_not_mem (by simp)
      rw [once last short] at absent
      cases absent
    · exact fun index event => passable index event (Nat.zero_le _)
  · intro passable
    obtain ⟨final, returns, visited⟩ := (EpollPass.Before.start events).returns (Nat.zero_le _)
      (fun later event _ => passable later event)
    refine ⟨final, returns, ?_⟩
    intro index inside
    rw [visited]
    exact List.count_eq_one_of_mem List.nodup_range (List.mem_range.mpr inside)

/-- Two connections send a character each; only the first is read from. -/
theorem second_connection_skipped :
    let events : List EpollEvent := [⟨5, epollIn⟩, ⟨6, epollIn⟩]
    let answers : Answers :=
      { accept := none
        control := true
        read := fun turn =>
          if turn = 0 then .some [104] (List.cons_ne_nil 104 []) (by decide) else .again
        write := fun _ => true }
    ¬ ∃ final, (EpollPass.loop 3 events fun _ => answers).Returns (.start events) final ∧
      ∀ index, index < events.length → final.visited.count index = 1 := by
  rintro events answers ⟨final, returns, once⟩
  have result : (EpollPass.loop 3 events fun _ => answers).Returns (.start events)
      ⟨2, -1, none, [0], [.write 5 [117]]⟩ := ⟨3, rfl⟩
  cases returns.unique result
  cases once 1 (by decide)

end Yolanda.Chapters
