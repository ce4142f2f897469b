import Yolanda.App.LoopPool
import Yolanda.Lib.ChannelMap

/-! The pool of loops of the C library, and the distribution of connections in both
libraries. -/

namespace Yolanda

namespace Lib.LoopPool

/-- `thread_pool_start`, which allocates the array of the threads. -/
def start (pool : LoopPool) : Except Stop LoopPool :=
  if pool.started then .error .assertion
  else if pool.threadNumber ≤ 0 then .ok { pool with started := true }
  else .ok { pool with
    started := true
    eventLoopThreads := (List.range pool.threadNumber.toNat).map .thread }

/-- `thread_pool_get_loop` -/
def getLoop (pool : LoopPool) : Except Stop (LoopRef × LoopPool) :=
  pool.select .assertion .memory

/-- So many calls of `thread_pool_get_loop` in a row. -/
def getLoops (pool : LoopPool) (calls : Nat) : Except Stop (List LoopRef × LoopPool) :=
  pool.selectAll .assertion .memory calls

/-- `thread_pool_start` returns the pool with its threads. -/
theorem start_running (threadNumber : Int) :
    start (.new threadNumber) = .ok (.running threadNumber) := by
  by_cases some : threadNumber ≤ 0
  · simp [start, Yolanda.LoopPool.new, Yolanda.LoopPool.running, some]
  · simp [start, Yolanda.LoopPool.new, Yolanda.LoopPool.running, some]

end Lib.LoopPool

/-- The pools of both libraries give every loop its turn, whatever the number of threads and of
connections. -/
theorem LoopPool.connections_distributed (threadNumber calls : Nat) :
    (∃ pool started given final, App.LoopPool.new threadNumber = some pool ∧
      App.LoopPool.start pool = .ok started ∧
      App.LoopPool.getLoops started calls = .ok (given, final) ∧
      final.Distributes threadNumber calls given) ∧
    ∃ started given final, Lib.LoopPool.start (.new threadNumber) = .ok started ∧
      Lib.LoopPool.getLoops started calls = .ok (given, final) ∧
      final.Distributes threadNumber calls given := by
  constructor
  · obtain ⟨given, final, calls, distributes⟩ := (running_started threadNumber).distributes calls
    exact ⟨_, _, given, final, if_neg (by omega), App.LoopPool.start_running threadNumber, calls,
      distributes⟩
  · obtain ⟨given, final, calls, distributes⟩ := (running_started threadNumber).distributes calls
    exact ⟨_, given, final, Lib.LoopPool.start_running threadNumber, calls, distributes⟩

end Yolanda
