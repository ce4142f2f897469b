import Yolanda.Chapters.BlockQueue
import Yolanda.Foundation.Wakeups
import Mathlib.Data.Fintype.Basic

/-! The threads of a thread pool (chap-26) in `block_queue_push` and `block_queue_pop`,
statement by statement. -/

namespace Yolanda.Chapters

open Foundation

inductive QueueCall where
  | push (fd : Int)
  | pop
  deriving DecidableEq

/-- The statements between the mutex calls. -/
inductive QueueStatement where
  /-- `blockQueue->fd[blockQueue->rear] = fd` -/
  | store
  /-- `if (++blockQueue->rear == blockQueue->number) blockQueue->rear = 0` -/
  | advanceRear
  /-- `int fd = blockQueue->fd[blockQueue->front]` -/
  | load
  /-- `if (++blockQueue->front == blockQueue->number) blockQueue->front = 0` -/
  | advanceFront
  deriving DecidableEq

namespace QueueStatement

/-- A statement on the queue and the variable `fd` of its thread. -/
def execute : BlockQueue × Int → QueueStatement → Except Fault (BlockQueue × Int)
  | (queue, fd), .store =>
    if queue.rear < queue.fd.length then .ok ({ queue with fd := queue.fd.set queue.rear fd }, fd)
    else .error .memory
  | (queue, fd), .advanceRear =>
    .ok ({ queue with rear := Ring.advance queue.number queue.rear }, fd)
  | (queue, _), .load =>
    match queue.fd[queue.front]? with
    | some fd => .ok (queue, fd)
    | none => .error .memory
  | (queue, fd), .advanceFront =>
    .ok ({ queue with front := Ring.advance queue.number queue.front }, fd)

end QueueStatement

/-- `block_queue_push` and `block_queue_pop`, with what stands between lock and unlock. -/
def queueProtocol : Protocol QueueCall QueueStatement Int BlockQueue Fault where
  ready queue
    | .push _ => true
    | .pop => queue.front ≠ queue.rear
  locals
    | .push fd => fd
    | .pop => 0
  statements
    | .push _ => [.store, .advanceRear]
    | .pop => [.load, .advanceFront]
  execute := QueueStatement.execute
  signals
    | .push _ => true
    | .pop => false

/-- The threads of a program with a queue. -/
abbrev QueueThreads (Thread : Type) :=
  Monitor Thread QueueCall QueueStatement Int BlockQueue

/-- A call that was made as an event of the queue, with threads by their numbers. -/
def queueEvent : Nat × QueueCall × Int → QueueEvent
  | (_, .push fd, _) => .push fd
  | (thread, .pop, _) => .pop thread

/-- What the calls returned. -/
def returned : List (Nat × QueueCall × Int) → List (Nat × Int)
  | [] => []
  | (_, .push _, _) :: calls => returned calls
  | (thread, .pop, fd) :: calls => (thread, fd) :: returned calls

theorem returned_append (first second : List (Nat × QueueCall × Int)) :
    returned (first ++ second) = returned first ++ returned second := by
  induction first with
  | nil => rfl
  | cons call calls ih =>
    obtain ⟨thread, call, fd⟩ := call
    cases call with
    | push value => exact ih
    | pop => exact congrArg ((thread, fd) :: ·) ih

theorem push_whole (queue : BlockQueue) (fd : Int) :
    queueProtocol.whole queue (.push fd) = (queue.push fd).map fun queue => (queue, fd) := by
  unfold BlockQueue.push
  split
  · simp [Protocol.whole, queueProtocol, run, QueueStatement.execute, *, Except.map]
  · simp [Protocol.whole, queueProtocol, run, QueueStatement.execute, *, Except.map]

theorem pop_whole {queue after : BlockQueue} {fd : Int} (filled : queue.front ≠ queue.rear) :
    queueProtocol.whole queue .pop = .ok (after, fd) ↔ queue.pop = .ok (some (fd, after)) := by
  unfold BlockQueue.pop
  rw [if_neg filled]
  cases found : queue.fd[queue.front]? with
  | none => simp [Protocol.whole, queueProtocol, run, QueueStatement.execute, found]
  | some value =>
    simp [Protocol.whole, queueProtocol, run, QueueStatement.execute, found, and_comm, eq_comm]

/-- Calls that are made one after the other are events of the queue. -/
theorem serial_refines {number : Nat} {calls : List (Nat × QueueCall × Int)} {base : BlockQueue}
    (serial : queueProtocol.Serial (.init number) calls base) :
    ∃ workers, run queueStep (.start number) (calls.map queueEvent) = .ok workers ∧
      workers.blockQueue = base ∧ workers.popped = returned calls := by
  induction serial with
  | nil => exact ⟨.start number, rfl, rfl, rfl⟩
  | @concat calls base call data fd thread before ready made ih =>
    obtain ⟨workers, success, same, popped⟩ := ih
    subst same
    cases call with
    | push value =>
      rw [push_whole] at made
      cases pushed : workers.blockQueue.push value with
      | error fault =>
        rw [pushed] at made
        cases made
      | ok queue =>
        rw [pushed] at made
        cases made
        refine ⟨{ workers with
          blockQueue := data
          pushed := workers.pushed ++ [fd] }, ?_, rfl, ?_⟩
        · rw [List.map_append]
          refine run_append.mpr ⟨workers, success, ?_⟩
          simp only [List.map_cons, List.map_nil, queueEvent, run, queueStep, pushed, ok_bind]
          rfl
        · rw [returned_append, popped]
          exact (List.append_nil _).symm
    | pop =>
      have filled : workers.blockQueue.front ≠ workers.blockQueue.rear := by
        simpa [queueProtocol] using ready
      have taken := (pop_whole filled).mp made
      refine ⟨{ workers with
        blockQueue := data
        popped := workers.popped ++ [(thread, fd)] }, ?_, rfl, ?_⟩
      · rw [List.map_append]
        refine run_append.mpr ⟨workers, success, ?_⟩
        simp only [List.map_cons, List.map_nil, queueEvent, run, queueStep, taken, ok_bind]
        rfl
      · rw [returned_append, popped]
        rfl

/-- The indices of a queue with cells are places of it. -/
structure BlockQueue.InRange (queue : BlockQueue) : Prop where
  number : queue.number = queue.fd.length
  front : queue.front < queue.fd.length
  rear : queue.rear < queue.fd.length

namespace BlockQueue.InRange

variable {queue after : BlockQueue} {fd : Int}

theorem init {number : Nat} (positive : 0 < number) : (BlockQueue.init number).InRange := by
  have width : (BlockQueue.init number).fd.length = number := List.length_replicate
  refine ⟨width.symm, ?_, ?_⟩
  · rw [width]
    exact positive
  · rw [width]
    exact positive

theorem push (range : queue.InRange) (fd : Int) :
    queue.push fd = .ok { queue with
      fd := queue.fd.set queue.rear fd
      rear := Ring.advance queue.fd.length queue.rear } := by
  rw [BlockQueue.push, if_pos range.rear, range.number]

/-- A push makes one descriptor more wait, or none where the ring was full. -/
theorem push_waiting (range : queue.InRange) (pushed : queue.push fd = .ok after) :
    after.InRange ∧ after.waiting.length ≤ queue.waiting.length + 1 := by
  rw [range.push] at pushed
  cases pushed
  have width : (queue.fd.set queue.rear fd).length = queue.fd.length := List.length_set
  refine ⟨⟨range.number.trans width.symm, ?_, ?_⟩, ?_⟩
  · rw [width]
    exact range.front
  · rw [width]
    exact Ring.advance_lt range.rear
  · by_cases room : queue.waiting.length + 1 < queue.fd.length
    · have more := @Ring.contents_push _ _ _ _ fd range.front range.rear room
      change (Ring.contents _ _ _).length ≤ _
      rw [more, List.length_append]
      exact Nat.le_refl _
    · have size := Ring.length_contents range.front range.rear
      have full : queue.waiting.length + 1 = queue.fd.length := by
        have front := range.front
        have rear := range.rear
        unfold waiting at room ⊢
        split at size <;> omega
      have none := @Ring.contents_push_full _ _ _ _ fd range.front range.rear full
      change (Ring.contents _ _ _).length ≤ _
      rw [none]
      exact Nat.zero_le _

/-- A pop that does not wait returns the descriptor that waits longest. -/
theorem pop (range : queue.InRange) (filled : queue.front ≠ queue.rear) :
    ∃ fd after, queue.pop = .ok (some (fd, after)) ∧ queue.waiting = fd :: after.waiting ∧
      after.InRange := by
  obtain ⟨fd, found, head⟩ := Ring.contents_pop range.front range.rear filled
  refine ⟨fd, { queue with
    front := Ring.advance queue.fd.length queue.front }, ?_, head,
    ⟨range.number, Ring.advance_lt range.front, range.rear⟩⟩
  simp only [BlockQueue.pop, if_neg filled, found, range.number]

end BlockQueue.InRange

/-- The descriptors that wait are what the workers come for. -/
theorem queue_tickets : queueProtocol.Tickets BlockQueue.InRange
    (fun queue => queue.waiting.length) (fun call => decide (call = .pop)) where
  waiting queue call range waits := by
    have pop : call = .pop := of_decide_eq_true waits
    subst pop
    have size := Ring.length_contents range.front range.rear
    have front := range.front
    have rear := range.rear
    simp only [queueProtocol, ne_eq, decide_eq_true_eq, BlockQueue.waiting]
    split at size <;> omega
  passing queue call passes := by
    cases call with
    | push fd => rfl
    | pop => cases passes
  taken queue call after fd range waits ready made := by
    have pop : call = .pop := of_decide_eq_true waits
    subst pop
    have filled : queue.front ≠ queue.rear := by simpa [queueProtocol] using ready
    obtain ⟨first, rest, popped, head, _⟩ := range.pop filled
    rw [(pop_whole filled).mp made] at popped
    cases popped
    rw [head, List.length_cons]
    exact Nat.lt_succ_self _
  given queue call after fd range passes made := by
    cases call with
    | push value =>
      rw [push_whole] at made
      cases pushed : queue.push value with
      | error fault =>
        rw [pushed] at made
        cases made
      | ok next =>
        rw [pushed] at made
        cases made
        exact (range.push_waiting pushed).2
    | pop => cases passes
  kept queue call after fd range ready made := by
    cases call with
    | push value =>
      rw [push_whole] at made
      cases pushed : queue.push value with
      | error fault =>
        rw [pushed] at made
        cases made
      | ok next =>
        rw [pushed] at made
        cases made
        exact (range.push_waiting pushed).1
    | pop =>
      have filled : queue.front ≠ queue.rear := by simpa [queueProtocol] using ready
      obtain ⟨first, rest, popped, _, inside⟩ := range.pop filled
      rw [(pop_whole filled).mp made] at popped
      cases popped
      exact inside

theorem serial_inRange {Thread : Type} {number : Nat} (positive : 0 < number)
    {calls : List (Thread × QueueCall × Int)} {base : BlockQueue}
    (serial : queueProtocol.Serial (.init number) calls base) : base.InRange := by
  induction serial with
  | nil => exact .init positive
  | concat before ready made range => exact queue_tickets.kept _ _ _ _ range ready made

/-- In a queue with cells every call returns. -/
theorem BlockQueue.InRange.call_returns {queue : BlockQueue} (range : queue.InRange)
    {call : QueueCall} (ready : queueProtocol.ready queue call = true) :
    ∃ after fd, queueProtocol.whole queue call = .ok (after, fd) := by
  cases call with
  | push fd => exact ⟨_, fd, (push_whole queue fd).trans (by rw [range.push]; rfl)⟩
  | pop =>
    have filled : queue.front ≠ queue.rear := by simpa [queueProtocol] using ready
    obtain ⟨fd, after, popped, _⟩ := range.pop filled
    exact ⟨after, fd, (pop_whole filled).mpr popped⟩

/-- No thread faults. -/
theorem threads_return {Thread : Type} [DecidableEq Thread] {number : Nat} (positive : 0 < number)
    (events : List (MonitorEvent Thread QueueCall)) : ∃ monitor : QueueThreads Thread,
      run (monitorStep queueProtocol) (.start (.init number)) events = .ok monitor := by
  cases success : run (monitorStep queueProtocol) (Monitor.start (.init number)) events with
  | ok monitor => exact ⟨monitor, rfl⟩
  | error fault =>
    obtain ⟨calls, base, call, serial, ready, failed⟩ := Monitor.run_fails success
    obtain ⟨after, fd, made⟩ := (serial_inRange positive serial).call_returns ready
    rw [made] at failed
    cases failed

/-- Whatever the order in which the threads come to their statements, none of them faults, and
the calls they have made are events of the queue, with the same results. -/
theorem threads_refine_queue {number : Nat} (positive : 0 < number)
    (events : List (MonitorEvent Nat QueueCall)) :
    ∃ (monitor : QueueThreads Nat) (workers : Workers),
      run (monitorStep queueProtocol) (.start (.init number)) events = .ok monitor ∧
      run queueStep (.start number) (monitor.committed.map queueEvent) = .ok workers ∧
      workers.popped = returned monitor.committed ∧
      (monitor.holder = none → monitor.data = workers.blockQueue) := by
  obtain ⟨monitor, success⟩ := threads_return positive events
  have sound := Monitor.run_sound success
  obtain ⟨workers, atomic, same, popped⟩ := serial_refines sound.serial
  refine ⟨monitor, workers, success, atomic, popped, ?_⟩
  intro free
  have agrees := sound.agrees
  rw [Monitor.active_of_free free] at agrees
  exact agrees.trans same.symm

/-- A worker that finds the queue empty and sleeps, and a push up to its signal. -/
def sleepAndPush (worker acceptor : Thread) (fd : Int) : List (MonitorEvent Thread QueueCall) :=
  [.call worker .pop, .advance worker worker, .advance worker worker, .call acceptor (.push fd)] ++
    List.replicate 5 (.advance acceptor worker)

theorem threads_refine_queue_sample : ∃ (monitor : QueueThreads Nat) (workers : Workers),
    run (monitorStep queueProtocol) (.start (.init 100)) (sleepAndPush 1 0 5) = .ok monitor ∧
      run queueStep (.start 100) (monitor.committed.map queueEvent) = .ok workers ∧
      workers.popped = returned monitor.committed ∧
      (monitor.holder = none → monitor.data = workers.blockQueue) :=
  threads_refine_queue (by decide) (sleepAndPush 1 0 5)

end Yolanda.Chapters
