import Yolanda.Foundation.Ring
import Yolanda.Foundation.Run
import Yolanda.Machine

/-! The queue of connections of a thread pool (chap-26). The accepting thread pushes
descriptors, and the worker threads pop them. -/

namespace Yolanda.Chapters

open Foundation

/-- `block_queue`, without its mutex and its condition. -/
structure BlockQueue where
  number : Nat
  fd : List Int
  front : Nat
  rear : Nat
  deriving DecidableEq

namespace BlockQueue

/-- `block_queue_init` -/
def init (number : Nat) : BlockQueue :=
  { number, fd := List.replicate number 0, front := 0, rear := 0 }

/-- `block_queue_push` -/
def push (queue : BlockQueue) (fd : Int) : Except Fault BlockQueue :=
  if queue.rear < queue.fd.length then
    .ok { queue with
      fd := queue.fd.set queue.rear fd
      rear := Ring.advance queue.number queue.rear }
  else .error .memory

/-- `block_queue_pop`, or `none` as long as it waits. -/
def pop (queue : BlockQueue) : Except Fault (Option (Int × BlockQueue)) :=
  if queue.front = queue.rear then .ok none
  else
    match queue.fd[queue.front]? with
    | some fd => .ok (some (fd, { queue with front := Ring.advance queue.number queue.front }))
    | none => .error .memory

/-- The descriptors that wait to be popped. -/
def waiting (queue : BlockQueue) : List Int :=
  Ring.contents queue.fd queue.front queue.rear

end BlockQueue

/-- The queue with all that was pushed, and what each thread popped. -/
structure Workers where
  blockQueue : BlockQueue
  pushed : List Int
  popped : List (Nat × Int)
  deriving DecidableEq

inductive QueueEvent where
  /-- The accepting thread calls `block_queue_push`. -/
  | push (fd : Int)
  /-- A worker thread is in `block_queue_pop`, and has the mutex. -/
  | pop (thread : Nat)

namespace Workers

def start (number : Nat) : Workers :=
  { blockQueue := .init number, pushed := [], popped := [] }

/-- The descriptors in the order in which they were popped. -/
def served (workers : Workers) : List Int :=
  workers.popped.map Prod.snd

end Workers

/-- A thread that finds the queue empty goes on waiting. -/
def queueStep (workers : Workers) : QueueEvent → Except Fault Workers
  | .push fd => do
    let blockQueue ← workers.blockQueue.push fd
    return { workers with blockQueue, pushed := workers.pushed ++ [fd] }
  | .pop thread => do
    match ← workers.blockQueue.pop with
    | none => return workers
    | some (fd, blockQueue) =>
      return { workers with blockQueue, popped := workers.popped ++ [(thread, fd)] }

namespace Workers

/-- What was popped is the beginning of what was pushed, and the rest of it waits. -/
structure ServedOnce (workers : Workers) : Prop where
  inOrder : workers.served <+: workers.pushed
  kept : workers.pushed.drop workers.served.length = workers.blockQueue.waiting

/-- The queue has room for one descriptor more than it is given. -/
def HasRoom (workers : Workers) : QueueEvent → Prop
  | .push _ => workers.blockQueue.waiting.length + 1 < workers.blockQueue.number
  | .pop _ => True

/-- The indices are places of the ring, and nothing is lost. -/
structure Good (number : Nat) (workers : Workers) : Prop where
  size : workers.blockQueue.number = number
  cells : workers.blockQueue.fd.length = number
  front : workers.blockQueue.front < max 1 number
  rear : workers.blockQueue.rear < max 1 number
  whole : workers.pushed = workers.served ++ workers.blockQueue.waiting

variable {number thread : Nat} {fd : Int} {workers next : Workers} {event : QueueEvent}

theorem start_good (number : Nat) : (start number).Good number := by
  have width : (List.replicate number (0 : Int)).length = number := List.length_replicate
  have places : 0 < max 1 number := by omega
  have empty : (start number).blockQueue.waiting = [] := Ring.contents_self _ 0
  refine ⟨rfl, width, places, places, ?_⟩
  rw [empty]
  rfl

theorem Good.servedOnce (good : workers.Good number) : workers.ServedOnce := by
  constructor
  · rw [good.whole]
    exact List.prefix_append ..
  · rw [good.whole, List.drop_left]

/-- A queue of some size returns from a push. -/
theorem Good.push (good : workers.Good number) (some : 0 < number) (fd : Int) :
    queueStep workers (.push fd) = .ok { workers with
      blockQueue := { workers.blockQueue with
        fd := workers.blockQueue.fd.set workers.blockQueue.rear fd
        rear := Ring.advance workers.blockQueue.fd.length workers.blockQueue.rear }
      pushed := workers.pushed ++ [fd] } := by
  have cells := good.cells
  have rear := good.rear
  have inside : workers.blockQueue.rear < workers.blockQueue.fd.length := by omega
  simp only [queueStep, BlockQueue.push, if_pos inside, ok_bind, good.size, ← good.cells]
  rfl

/-- A push into a queue with room comes last. -/
theorem Good.push_good (good : workers.Good number)
    (room : workers.blockQueue.waiting.length + 1 < number) :
    ∃ next, queueStep workers (.push fd) = .ok next ∧ next.Good number := by
  have cells := good.cells
  have front := good.front
  have rear := good.rear
  have first : workers.blockQueue.front < workers.blockQueue.fd.length := by omega
  have last : workers.blockQueue.rear < workers.blockQueue.fd.length := by omega
  have inside := Ring.advance_lt last
  refine ⟨_, good.push (by omega) fd, good.size, ?_, front, ?_, ?_⟩
  · exact List.length_set.trans cells
  · change Ring.advance _ _ < max 1 number
    omega
  · have more := @Ring.contents_push _ _ _ _ fd first last (by rw [cells]; exact room)
    change workers.pushed ++ [fd] = workers.served ++ Ring.contents _ _ _
    rw [good.whole, more, List.append_assoc]
    rfl

/-- A push into a full queue loses what waits. -/
theorem Good.push_lost (good : workers.Good number)
    (full : ¬ workers.blockQueue.waiting.length + 1 < number)
    (pushed : queueStep workers (.push fd) = .ok next) : ¬ next.ServedOnce := by
  have cells := good.cells
  have front := good.front
  have rear := good.rear
  have some : 0 < number := by
    by_contra none
    have outside : ¬ workers.blockQueue.rear < workers.blockQueue.fd.length := by omega
    simp only [queueStep, BlockQueue.push, if_neg outside] at pushed
    cases pushed
  have first : workers.blockQueue.front < workers.blockQueue.fd.length := by omega
  have last : workers.blockQueue.rear < workers.blockQueue.fd.length := by omega
  have width := Ring.length_contents first last
  have whole : workers.blockQueue.waiting.length + 1 = workers.blockQueue.fd.length := by
    unfold BlockQueue.waiting at full ⊢
    split at width
    · omega
    · omega
  cases (good.push some fd).symm.trans pushed
  intro once
  have nothing := @Ring.contents_push_full _ _ _ _ fd first last whole
  have kept := once.kept
  change (workers.pushed ++ [fd]).drop workers.served.length = Ring.contents _ _ _ at kept
  rw [nothing, good.whole, List.append_assoc, List.drop_left] at kept
  simp at kept

/-- A pop gives out the descriptor that waits longest, if there is one. -/
theorem Good.pop_good (good : workers.Good number) (thread : Nat) :
    ∃ next, queueStep workers (.pop thread) = .ok next ∧ next.Good number := by
  by_cases empty : workers.blockQueue.front = workers.blockQueue.rear
  · refine ⟨workers, ?_, good⟩
    simp only [queueStep, BlockQueue.pop, if_pos empty, ok_bind]
    rfl
  · have cells := good.cells
    have front := good.front
    have rear := good.rear
    have first : workers.blockQueue.front < workers.blockQueue.fd.length := by omega
    have last : workers.blockQueue.rear < workers.blockQueue.fd.length := by omega
    obtain ⟨fd, found, head⟩ := Ring.contents_pop first last empty
    have inside := Ring.advance_lt first
    refine ⟨{ workers with
      blockQueue := { workers.blockQueue with
        front := Ring.advance workers.blockQueue.fd.length workers.blockQueue.front }
      popped := workers.popped ++ [(thread, fd)] }, ?_, good.size, cells, ?_, rear, ?_⟩
    · simp only [queueStep, BlockQueue.pop, if_neg empty, found, ok_bind, good.size, ← cells]
      rfl
    · change Ring.advance _ _ < max 1 number
      omega
    · have same : workers.blockQueue.waiting = fd :: Ring.contents workers.blockQueue.fd
        (Ring.advance workers.blockQueue.fd.length workers.blockQueue.front)
        workers.blockQueue.rear := head
      rw [good.whole, same]
      simp [served, BlockQueue.waiting]

/-- Every connection is served once as long as the queue is given no descriptor that it has no
room for. -/
theorem served_once_iff (number : Nat) (events : List QueueEvent) :
    Throughout queueStep ServedOnce (start number) events ↔
      Along queueStep HasRoom (start number) events := by
  refine throughout_iff_along ?_ ?_ ?_ (start_good number)
  · intro workers event good room
    cases event with
    | push fd =>
      change workers.blockQueue.waiting.length + 1 < workers.blockQueue.number at room
      rw [good.size] at room
      exact good.push_good room
    | pop thread => exact good.pop_good thread
  · intro workers event next good crowded taken
    cases event with
    | push fd =>
      change ¬ workers.blockQueue.waiting.length + 1 < workers.blockQueue.number at crowded
      rw [good.size] at crowded
      exact good.push_lost crowded taken
    | pop thread => exact absurd trivial crowded
  · intro workers good
    exact good.servedOnce

/-- As many connections in a row as the queue of the program has places. -/
def overrun : List QueueEvent :=
  (List.range 101).map (fun fd => .push (fd + 4)) ++ [.pop 0]

/-- They make the queue look empty, and a worker is given the one that comes behind them. -/
theorem overrun_serves_last :
    ∃ final, run queueStep (start 100) overrun = .ok final ∧ ¬ final.served <+: final.pushed := by
  have ends : (run queueStep (start 100) overrun).map
      (fun workers => (workers.served, workers.pushed.head?)) = .ok ([104], some 4) := by
    decide +kernel
  cases success : run queueStep (start 100) overrun with
  | error fault =>
    rw [success] at ends
    cases ends
  | ok final =>
    rw [success] at ends
    obtain ⟨served, pushed⟩ := Prod.mk.inj (Except.ok.inj ends)
    refine ⟨final, rfl, ?_⟩
    rintro ⟨behind, whole⟩
    rw [served] at whole
    rw [← whole] at pushed
    cases pushed

end Workers

end Yolanda.Chapters
