import Yolanda.App.Handover
import Yolanda.Foundation.RoundRobin

/-! The pool of loops that new connections are given to, and what both libraries share of it. -/

namespace Yolanda

open Foundation

/-- A loop, by the thread it runs in. -/
inductive LoopRef where
  | main
  | thread (number : Nat)
  deriving DecidableEq, Repr

/-- `struct thread_pool`, with the loop of each of its threads. -/
structure LoopPool where
  mainLoop : LoopRef
  started : Bool
  threadNumber : Int
  eventLoopThreads : List LoopRef
  position : Int

namespace LoopPool

/-- `thread_pool::thread_pool` and `thread_pool_new` -/
def new (threadNumber : Int) : LoopPool :=
  { mainLoop := .main, started := false, threadNumber, eventLoopThreads := [], position := 0 }

variable {Stop : Type} (assertion memory : Stop)

/-- `get_loop` of both libraries, with what ends their calls. -/
def select (pool : LoopPool) : Except Stop (LoopRef × LoopPool) :=
  if pool.started then
    if pool.threadNumber > 0 then
      match if 0 ≤ pool.position then pool.eventLoopThreads[pool.position.toNat]? else none with
      | none => .error memory
      | some selected =>
        .ok (selected, { pool with
          position := if pool.position + 1 ≥ pool.threadNumber then 0 else pool.position + 1 })
    else .ok (pool.mainLoop, pool)
  else .error assertion

/-- The loops that so many calls in a row give out. -/
def selectAll (pool : LoopPool) : Nat → Except Stop (List LoopRef × LoopPool)
  | 0 => .ok ([], pool)
  | calls + 1 => do
    let (given, pool) ← pool.selectAll calls
    let (selected, pool) ← pool.select assertion memory
    return (given ++ [selected], pool)

/-- What a pool has given out after so many calls: with threads, a loop of each in turn, and
none of them twice more than another; without, the main loop. -/
structure Distributes (threadNumber : Int) (calls : Nat) (given : List LoopRef)
    (pool : LoopPool) : Prop where
  all : given.length = calls
  inside : 0 < threadNumber → 0 ≤ pool.position ∧ pool.position < threadNumber
  inTurn : 0 < threadNumber → ∀ call < calls,
    given[call]? = some (.thread (call % threadNumber.toNat))
  even : ∀ first second : Nat, first < threadNumber → second < threadNumber →
    given.count (.thread first) ≤ given.count (.thread second) + 1
  alone : threadNumber ≤ 0 → ∀ loop ∈ given, loop = .main

/-- A pool behind its start, after so many calls. -/
structure Started (threadNumber : Int) (calls : Nat) (pool : LoopPool) : Prop where
  started : pool.started = true
  main : pool.mainLoop = .main
  threads : pool.threadNumber = threadNumber
  loops : 0 < threadNumber →
    pool.eventLoopThreads = (List.range threadNumber.toNat).map LoopRef.thread
  place : 0 < threadNumber → pool.position = (calls % threadNumber.toNat : Nat)

variable {assertion memory} {threadNumber : Int} {calls : Nat} {pool : LoopPool}

/-- A call gives out the loop whose turn it is. -/
theorem Started.select (started : pool.Started threadNumber calls) :
    ∃ next, pool.select assertion memory =
        .ok (if 0 < threadNumber then .thread (calls % threadNumber.toNat) else .main, next) ∧
      next.Started threadNumber (calls + 1) := by
  by_cases some : 0 < threadNumber
  · have place := started.place some
    have positive : 0 < threadNumber.toNat := by omega
    have inside := Nat.mod_lt calls positive
    have entry : pool.eventLoopThreads[calls % threadNumber.toNat]? =
        .some (.thread (calls % threadNumber.toNat)) := by
      rw [started.loops some, List.getElem?_map, List.getElem?_range inside]
      rfl
    have turn := @RoundRobin.next_turn threadNumber.toNat calls positive
    refine ⟨{ pool with
      position := if pool.position + 1 ≥ pool.threadNumber then 0 else pool.position + 1 }, ?_,
      started.started, started.main, started.threads, started.loops, fun _ => ?_⟩
    · simp only [LoopPool.select, started.started, started.threads, some, place,
        Int.natCast_nonneg, ↓reduceIte, Int.toNat_natCast, entry]
    · change (if pool.position + 1 ≥ pool.threadNumber then 0 else pool.position + 1) = _
      rw [place, started.threads, ← turn]
      by_cases last : threadNumber.toNat ≤ calls % threadNumber.toNat + 1
      · rw [if_pos last, if_pos (by omega)]
        rfl
      · rw [if_neg last, if_neg (by omega)]
        rfl
  · refine ⟨pool, ?_, started.started, started.main, started.threads, fun more => absurd more some,
      fun more => absurd more some⟩
    simp only [LoopPool.select, started.started, started.threads, started.main, some, ↓reduceIte]

/-- The loops that are given out are those whose turn it is. -/
theorem Started.selectAll (started : pool.Started threadNumber 0) (calls : Nat) :
    ∃ final, pool.selectAll assertion memory calls =
        .ok (if 0 < threadNumber then (RoundRobin.turns threadNumber.toNat calls).map .thread
          else List.replicate calls .main, final) ∧
      final.Started threadNumber calls := by
  induction calls with
  | zero =>
    refine ⟨pool, ?_, started⟩
    rw [LoopPool.selectAll]
    split
    · rfl
    · rfl
  | succ calls ih =>
    obtain ⟨middle, given, reached⟩ := ih
    obtain ⟨final, selected, kept⟩ := @Started.select _ assertion memory _ _ _ reached
    refine ⟨final, ?_, kept⟩
    simp only [LoopPool.selectAll, given, selected, ok_bind]
    by_cases some : 0 < threadNumber
    · simp only [if_pos some, RoundRobin.turns_succ, List.map_append]
      rfl
    · simp only [if_neg some, List.replicate_succ']
      rfl

/-- Started pools distribute the connections. -/
theorem Started.distributes (started : pool.Started threadNumber 0) (calls : Nat) :
    ∃ given final, pool.selectAll assertion memory calls = .ok (given, final) ∧
      final.Distributes threadNumber calls given := by
  obtain ⟨final, given, reached⟩ := @Started.selectAll _ assertion memory _ _ started calls
  refine ⟨_, final, given, ?_⟩
  by_cases some : 0 < threadNumber
  · have positive : 0 < threadNumber.toNat := by omega
    have inside := Nat.mod_lt calls positive
    have place := reached.place some
    rw [if_pos some]
    constructor
    · rw [List.length_map, RoundRobin.length_turns]
    · intro _
      omega
    · intro _ call before
      rw [List.getElem?_map, RoundRobin.getElem?_turns before]
      rfl
    · intro first second one other
      have injective : Function.Injective LoopRef.thread := fun _ _ => LoopRef.thread.inj
      rw [List.count_map_of_injective _ _ injective, List.count_map_of_injective _ _ injective]
      exact RoundRobin.count_turns_le calls (by omega) (by omega)
    · intro none
      omega
  · rw [if_neg some]
    constructor
    · exact List.length_replicate
    · exact fun more => absurd more some
    · exact fun more => absurd more some
    · intro first second one
      omega
    · intro _ loop member
      exact List.eq_of_mem_replicate member

/-- A pool of so many threads, once it has been started. -/
def running (threadNumber : Int) : LoopPool :=
  if threadNumber ≤ 0 then { new threadNumber with started := true }
  else { new threadNumber with
    started := true
    eventLoopThreads := (List.range threadNumber.toNat).map .thread }

theorem running_started (threadNumber : Int) : (running threadNumber).Started threadNumber 0 := by
  unfold running
  split
  · refine ⟨rfl, rfl, rfl, ?_, ?_⟩
    · intro more
      omega
    · intro more
      omega
  · exact ⟨rfl, rfl, rfl, fun _ => rfl, fun _ => rfl⟩

end LoopPool

namespace App.LoopPool

/-- `thread_pool::thread_pool`, whose `reserve` throws on a negative number. -/
def new (threadNumber : Int) : Option LoopPool :=
  if threadNumber < 0 then none else some (.new threadNumber)

/-- `thread_pool::start` -/
def start (pool : LoopPool) : Except Fault LoopPool :=
  if pool.started then .error .assertion
  else if pool.threadNumber ≤ 0 then .ok { pool with started := true }
  else .ok { pool with
    started := true
    eventLoopThreads := (List.range pool.threadNumber.toNat).foldl
      (fun threads i => threads ++ [.thread i]) pool.eventLoopThreads }

/-- `thread_pool::get_loop` -/
def getLoop (pool : LoopPool) : Except Fault (LoopRef × LoopPool) :=
  pool.select .assertion .memory

/-- So many calls of `get_loop` in a row. -/
def getLoops (pool : LoopPool) (calls : Nat) : Except Fault (List LoopRef × LoopPool) :=
  pool.selectAll .assertion .memory calls

/-- One more call takes the loop that `get_loop` chooses. -/
theorem getLoops_succ (pool : LoopPool) (calls : Nat) :
    getLoops pool (calls + 1) = (do
      let (given, middle) ← getLoops pool calls
      let (selected, next) ← getLoop middle
      return (given ++ [selected], next)) := rfl

private theorem started_threads (number : Nat) (threads : List LoopRef) :
    (List.range number).foldl (fun threads i => threads ++ [.thread i]) threads =
      threads ++ (List.range number).map .thread := by
  induction number with
  | zero => simp
  | succ number ih => simp [List.range_succ, ih]

/-- `start` returns the pool with its threads. -/
theorem start_running (threadNumber : Int) :
    start (.new threadNumber) = .ok (.running threadNumber) := by
  have threads := started_threads threadNumber.toNat []
  by_cases some : threadNumber ≤ 0
  · simp [start, Yolanda.LoopPool.new, Yolanda.LoopPool.running, some]
  · simp [start, Yolanda.LoopPool.new, Yolanda.LoopPool.running, some, threads]

end App.LoopPool

/-- The number a loop has where connections are handed over. -/
def LoopRef.number : LoopRef → Nat
  | .main => 0
  | .thread number => number + 1

/-- The pool as the hand-over of connections sees it. -/
def LoopPool.handover (pool : LoopPool) : App.ThreadPool :=
  { threadNumber := pool.threadNumber, position := pool.position.toNat }

/-- The loops connections are handed over to are those the started pool gives out. -/
theorem LoopPool.Started.handover {threadNumber : Int} {calls : Nat} {pool next : LoopPool}
    {selected : LoopRef} (started : pool.Started threadNumber calls)
    (given : App.LoopPool.getLoop pool = .ok (selected, next)) :
    pool.handover.getLoop = (selected.number, next.handover) := by
  rw [App.LoopPool.getLoop, LoopPool.select, if_pos started.started] at given
  by_cases some : pool.threadNumber > 0
  · rw [if_pos some] at given
    have positive : 0 < threadNumber := started.threads ▸ some
    have place := started.place positive
    have inside := Nat.mod_lt calls (show 0 < threadNumber.toNat by omega)
    have entry : pool.eventLoopThreads[calls % threadNumber.toNat]? =
        .some (.thread (calls % threadNumber.toNat)) := by
      rw [started.loops positive, List.getElem?_map, List.getElem?_range inside]
      rfl
    simp only [place, Int.natCast_nonneg, ↓reduceIte, Int.toNat_natCast, entry, Except.ok.injEq,
      Prod.mk.injEq] at given
    obtain ⟨rfl, rfl⟩ := given
    simp only [LoopPool.handover, App.ThreadPool.getLoop, some, ↓reduceIte, place,
      Int.toNat_natCast, LoopRef.number]
    congr 2
    split
    · split
      · rfl
      · omega
    · split
      · omega
      · omega
  · rw [if_neg some] at given
    cases given
    change (if pool.threadNumber > 0 then _ else _) = _
    rw [if_neg some, started.main]
    rfl

end Yolanda
