import Yolanda.Lib.LoopPool
import Yolanda.Foundation.Wakeups

/-! The start of the threads of a pool. Every thread builds its loop and signals, and the main
thread waits for one loop before it creates the next thread. -/

namespace Yolanda

open Foundation

inductive StartThread where
  | main
  | worker
  deriving DecidableEq

namespace StartThread

instance : Fintype StartThread where
  elems := {.main, .worker}
  complete thread := by cases thread <;> decide

end StartThread

/-- The calls around the mutex of an `event_loop_thread`. -/
inductive StartCall where
  /-- `event_loop_thread_run`, up to `event_loop_run` -/
  | build
  /-- `event_loop_thread_start`, behind `pthread_create` -/
  | await
  deriving DecidableEq

inductive StartStatement where
  /-- `eventLoop = event_loop_init_with_name(..)` -/
  | initLoop
  deriving DecidableEq

/-- `event_loop_thread_run` and `event_loop_thread_start` of the thread with this number; the
data are the pointer `eventLoop`. -/
def startProtocol (number : Nat) :
    Protocol StartCall StartStatement Unit (Option LoopRef) Empty where
  ready eventLoop
    | .build => true
    | .await => eventLoop.isSome
  locals _ := ()
  statements
    | .build => [.initLoop]
    | .await => []
  execute
    | _, .initLoop => .ok (some (.thread number), ())
  signals
    | .build => true
    | .await => false

/-- An `event_loop_thread`, shared by the main thread and the thread it creates. -/
abbrev LoopThread := Monitor StartThread StartCall StartStatement Unit (Option LoopRef)

/-- `event_loop_thread_init`, and `pthread_create`: both threads come to the mutex. -/
def LoopThread.created : LoopThread :=
  ((Monitor.start none).move .main (.entering .await)).move .worker (.entering .build)

/-- `thread_pool_start`, in the loop over the threads. -/
structure PoolStart where
  threadNumber : Nat
  eventLoopThreads : List LoopThread
  i : Nat

inductive StartEvent where
  /-- The main thread initializes and creates the next thread. -/
  | create
  /-- The main thread goes on in `event_loop_thread_start`. -/
  | main
  /-- `event_loop_thread_start` returns, and the main thread comes to the next turn. -/
  | next
  /-- A created thread goes on; should it signal, the main thread wakes if it sleeps. -/
  | worker (number : Nat)
  /-- The main thread wakes in `pthread_cond_wait` without a signal. -/
  | spurious
  deriving DecidableEq

namespace PoolStart

def start (threadNumber : Nat) : PoolStart :=
  { threadNumber, eventLoopThreads := [], i := 0 }

/-- A step of one thread of an `event_loop_thread`. -/
def stepThread (pool : PoolStart) (number : Nat) (event : MonitorEvent StartThread StartCall) :
    Except Empty PoolStart :=
  match pool.eventLoopThreads[number]? with
  | none => .ok pool
  | some thread =>
    match monitorStep (startProtocol number) thread event with
    | .ok thread => .ok { pool with eventLoopThreads := pool.eventLoopThreads.set number thread }
    | .error stop => .error stop

end PoolStart

/-- A step that cannot be taken changes nothing. -/
def startStep (pool : PoolStart) : StartEvent → Except Empty PoolStart
  | .create =>
    if pool.i < pool.threadNumber ∧ pool.eventLoopThreads.length = pool.i then
      .ok { pool with eventLoopThreads := pool.eventLoopThreads ++ [.created] }
    else .ok pool
  | .main => pool.stepThread pool.i (.advance .main .worker)
  | .next =>
    match pool.eventLoopThreads[pool.i]? with
    | some thread =>
      match thread.points .main with
      | .outside => .ok { pool with i := pool.i + 1 }
      | _ => .ok pool
    | none => .ok pool
  | .worker number => pool.stepThread number (.advance .worker .main)
  | .spurious => pool.stepThread pool.i (.spurious .main)

namespace LoopThread

/-- The thread is built up to its place: the loop is there behind the statement that builds it. -/
def Builds (number : Nat) (eventLoop : Option LoopRef) :
    Point StartCall StartStatement Unit → Prop
  | .entering .build | .testing .build | .inside .build [.initLoop] _ => eventLoop = none
  | .inside .build [] _ | .signalling .build _ | .leaving .build _ | .outside =>
    eventLoop = some (.thread number)
  | _ => False

/-- The signal is still to come. -/
def SignalAhead : Point StartCall StartStatement Unit → Prop
  | .leaving _ _ | .outside => False
  | _ => True

/-- The main thread is behind its wait only with a loop, and sleeps only before the signal. -/
def Awaits (number : Nat) (eventLoop : Option LoopRef)
    (worker : Point StartCall StartStatement Unit) : Point StartCall StartStatement Unit → Prop
  | .entering .await | .testing .await => True
  | .asleep .await => SignalAhead worker
  | .inside .await [] _ | .leaving .await _ | .outside => eventLoop = some (.thread number)
  | _ => False

structure Starting (number : Nat) (thread : LoopThread) : Prop where
  sound : thread.Sound (startProtocol number) none
  builds : Builds number thread.data (thread.points .worker)
  awaits : Awaits number thread.data (thread.points .worker) (thread.points .main)

variable {number : Nat} {thread next : LoopThread}

theorem created_starting (number : Nat) : created.Starting number := by
  have first : ((Monitor.start none : LoopThread).move .main (.entering .await)).Sound
      (startProtocol number) none :=
    (Monitor.start_sound (startProtocol number) none).step
      (show monitorStep _ _ (.call .main .await) = .ok _ from rfl)
  have second : created.Sound (startProtocol number) none :=
    first.step (show monitorStep _ _ (.call .worker .build) = .ok _ from rfl)
  exact ⟨second, rfl, trivial⟩

/-- The loop is there when the test of the main thread succeeds, and the signal is still to come
when it does not. -/
theorem Starting.tested (starting : thread.Starting number) :
    if thread.data.isSome then thread.data = some (.thread number)
    else SignalAhead (thread.points .worker) := by
  have builds := starting.builds
  unfold Builds at builds
  split at builds
  · rw [builds, ‹thread.points .worker = _›]
    trivial
  · rw [builds, ‹thread.points .worker = _›]
    trivial
  · rw [builds, ‹thread.points .worker = _›]
    trivial
  · rw [builds]
    rfl
  · rw [builds]
    rfl
  · rw [builds]
    rfl
  · rw [builds]
    rfl
  · exact builds.elim

/-- The main thread goes on. -/
theorem Starting.main (starting : thread.Starting number)
    (progress : thread.Progress (startProtocol number) .main next) : next.Starting number := by
  have sound := starting.sound.progress progress
  have builds := starting.builds
  have awaits := starting.awaits
  have tested := starting.tested
  cases progress with
  | @locks call here free =>
    cases call with
    | build => exact (here ▸ awaits : Awaits _ _ _ (.entering .build)).elim
    | await => exact ⟨sound, builds, trivial⟩
  | @passes call here ready =>
    rw [here] at awaits
    cases call with
    | build => exact awaits.elim
    | await =>
      have loop : thread.data.isSome = true := ready
      rw [if_pos loop] at tested
      exact ⟨sound, builds, tested⟩
  | @waits call here unready =>
    rw [here] at awaits
    cases call with
    | build => exact awaits.elim
    | await =>
      have none : thread.data.isSome = false := unready
      rw [none] at tested
      exact ⟨sound, builds, tested⟩
  | @executes call statement rest frame data after here executed =>
    rw [here] at awaits
    cases call with
    | build => exact awaits.elim
    | await => exact awaits.elim
  | @commits call frame here =>
    rw [here] at awaits
    cases call with
    | build => exact awaits.elim
    | await => exact ⟨sound, builds, awaits⟩
  | @signals call frame here nobody =>
    rw [here] at awaits
    exact awaits.elim
  | @wakes call frame chosen here member =>
    rw [here] at awaits
    exact awaits.elim
  | @leaves call frame here =>
    rw [here] at awaits
    cases call with
    | build => exact awaits.elim
    | await => exact ⟨sound, builds, awaits⟩

/-- The main thread stays where it is: a built loop remains, and if it sleeps the signal is still
to come. -/
theorem Awaits.stay {eventLoop later : Option LoopRef} {worker after main : Point StartCall _ Unit}
    (awaits : Awaits number eventLoop worker main)
    (remains : eventLoop = some (.thread number) → later = some (.thread number))
    (ahead : main.Sleeping → SignalAhead after) : Awaits number later after main := by
  cases main with
  | outside => exact remains awaits
  | entering call => cases call <;> exact awaits
  | testing call => cases call <;> exact awaits
  | asleep call =>
    cases call with
    | build => exact awaits.elim
    | await => exact ahead trivial
  | inside call rest frame =>
    cases call with
    | build => exact awaits.elim
    | await =>
      cases rest with
      | nil => exact remains awaits
      | cons statement rest => exact awaits.elim
  | signalling call frame => exact awaits.elim
  | leaving call frame =>
    cases call with
    | build => exact awaits.elim
    | await => exact remains awaits

/-- The created thread goes on. -/
theorem Starting.worker (starting : thread.Starting number)
    (progress : thread.Progress (startProtocol number) .worker next) : next.Starting number := by
  have sound := starting.sound.progress progress
  have builds := starting.builds
  have awaits := starting.awaits
  cases progress with
  | @locks call here free =>
    rw [here] at builds
    cases call with
    | build => exact ⟨sound, builds, awaits.stay id fun _ => trivial⟩
    | await => exact builds.elim
  | @passes call here ready =>
    rw [here] at builds
    cases call with
    | build => exact ⟨sound, builds, awaits.stay id fun _ => trivial⟩
    | await => exact builds.elim
  | @waits call here unready =>
    rw [here] at builds
    cases call with
    | build => cases unready
    | await => exact builds.elim
  | @executes call statement rest frame data after here executed =>
    rw [here] at builds
    cases call with
    | await => exact builds.elim
    | build =>
      cases rest with
      | cons other rest => exact builds.elim
      | nil =>
        have none : thread.data = none := builds
        cases executed
        rw [none] at awaits
        exact ⟨sound, rfl, awaits.stay (fun _ => rfl) fun _ => trivial⟩
  | @commits call frame here =>
    rw [here] at builds
    cases call with
    | build => exact ⟨sound, builds, awaits.stay id fun _ => trivial⟩
    | await => exact builds.elim
  | @signals call frame here nobody =>
    rw [here] at builds
    have awake : ¬ (thread.points .main).Sleeping := by
      rw [starting.sound.sleeps, nobody]
      exact List.not_mem_nil
    cases call with
    | build => exact ⟨sound, builds, awaits.stay id fun asleep => absurd asleep awake⟩
    | await => exact builds.elim
  | @wakes call frame chosen here member =>
    rw [here] at builds
    have sleeping := (starting.sound.sleeps chosen).mpr member
    cases chosen with
    | worker =>
      rw [here] at sleeping
      exact sleeping.elim
    | main =>
      cases place : thread.points .main with
      | asleep other =>
        rw [place] at awaits
        cases call with
        | await => exact builds.elim
        | build =>
          cases other with
          | build => exact awaits.elim
          | await =>
            have woken : thread.wake .main = { thread.move .main (.entering .await) with
                sleepers := thread.sleepers.erase .main } := by
              simp only [Monitor.wake, place]
            rw [woken] at sound ⊢
            exact ⟨sound, builds, trivial⟩
      | _ =>
        rw [place] at sleeping
        exact sleeping.elim
  | @leaves call frame here =>
    rw [here] at builds awaits
    have awake : ¬ (thread.points .main).Sleeping := by
      intro sleeping
      cases place : thread.points .main with
      | asleep other =>
        rw [place] at awaits
        cases other with
        | build => exact awaits
        | await => exact awaits
      | _ =>
        rw [place] at sleeping
        exact sleeping
    cases call with
    | build => exact ⟨sound, builds, awaits.stay id fun asleep => absurd asleep awake⟩
    | await => exact builds.elim

/-- The main thread wakes without a signal. -/
theorem Starting.spurious (starting : thread.Starting number) :
    Starting number (thread.wake .main) := by
  have sound := starting.sound.wake .main
  have awaits := starting.awaits
  cases place : thread.points .main with
  | asleep call =>
    rw [place] at awaits
    cases call with
    | build => exact awaits.elim
    | await =>
      have woken : thread.wake .main = { thread.move .main (.entering .await) with
          sleepers := thread.sleepers.erase .main } := by
        simp only [Monitor.wake, place]
      rw [woken] at sound ⊢
      exact ⟨sound, starting.builds, trivial⟩
  | _ =>
    simp only [Monitor.wake, place]
    exact starting

theorem Starting.step {event : MonitorEvent StartThread StartCall} (starting : thread.Starting number)
    (begins : ∀ who call, event ≠ .call who call) (wakes : event ≠ .spurious .worker)
    (taken : monitorStep (startProtocol number) thread event = .ok next) : next.Starting number := by
  cases event with
  | call who call => exact absurd rfl (begins who call)
  | advance who chosen =>
    rcases Monitor.advance_cases taken with same | progress
    · exact same ▸ starting
    · cases who with
      | main => exact starting.main progress
      | worker => exact starting.worker progress
  | spurious who =>
    cases who with
    | worker => exact absurd rfl wakes
    | main =>
      cases taken
      exact starting.spurious

/-- A loop that is built is not built again. -/
theorem built_stays {event : MonitorEvent StartThread StartCall}
    (built : thread.data = some (.thread number))
    (taken : monitorStep (startProtocol number) thread event = .ok next) :
    next.data = some (.thread number) := by
  cases event with
  | call who call =>
    simp only [monitorStep] at taken
    split at taken <;> cases taken <;> exact built
  | spurious who =>
    cases taken
    exact (Monitor.wake_data thread who).trans built
  | advance who chosen =>
    rcases Monitor.advance_cases taken with same | progress
    · exact same ▸ built
    · cases progress with
      | @executes call statement rest frame data after here executed =>
        cases statement with
        | initLoop =>
          cases executed
          rfl
      | @wakes call frame chosen here member => exact (Monitor.wake_data thread chosen).trans built
      | _ => exact built

theorem Starting.main_silent (starting : thread.Starting number) (call : StartCall)
    (frame : Unit) : thread.points .main ≠ .signalling call frame := by
  intro here
  have awaits := starting.awaits
  rw [here] at awaits
  exact awaits

/-- The signal wakes the main thread, if it wakes anybody. -/
theorem Starting.signals (starting : thread.Starting number) {call : StartCall} {frame : Unit}
    (here : thread.points .worker = .signalling call frame) : ∃ next,
      thread.advance (startProtocol number) .worker .main = .ok next ∧
        thread.Progress (startProtocol number) .worker next := by
  by_cases nobody : thread.sleepers = []
  · exact ⟨_, by simp only [Monitor.advance, here, if_pos nobody], .signals here nobody⟩
  · obtain ⟨chosen, others, shape⟩ := List.exists_cons_of_ne_nil nobody
    have member : chosen ∈ thread.sleepers := by
      rw [shape]
      exact List.mem_cons_self ..
    have main : chosen = .main := by
      cases chosen with
      | main => rfl
      | worker =>
        have sleeping := (starting.sound.sleeps .worker).mpr member
        rw [here] at sleeping
        exact sleeping.elim
    subst main
    refine ⟨_, ?_, .wakes here member⟩
    simp only [Monitor.advance, here, if_neg nobody, if_pos member]

/-- A thread that is in a call and awake makes one of the two go on. -/
theorem Starting.goes_on_from (starting : thread.Starting number) {who : StartThread}
    (inside : thread.points who ≠ .outside) (awake : ¬ (thread.points who).Sleeping) :
    (∃ next, thread.advance (startProtocol number) .main .worker = .ok next ∧
      thread.Progress (startProtocol number) .main next) ∨
    ∃ next, thread.advance (startProtocol number) .worker .main = .ok next ∧
      thread.Progress (startProtocol number) .worker next := by
  obtain ⟨other, chosen, ⟨next, taken, progress⟩ | ⟨stop, _⟩⟩ :=
    starting.sound.goes_on inside awake
  · cases other with
    | main =>
      left
      refine ⟨next, ?_, progress⟩
      rw [← taken]
      exact Monitor.advance_chosen starting.main_silent chosen
    | worker =>
      right
      by_cases signals : ∃ call frame, thread.points .worker = .signalling call frame
      · obtain ⟨call, frame, here⟩ := signals
        exact starting.signals here
      · refine ⟨next, ?_, progress⟩
        rw [← taken]
        exact Monitor.advance_chosen (fun call frame here => signals ⟨call, frame, here⟩) chosen
  · exact stop.elim

/-- As long as the main thread has not returned, one of the two threads goes on. -/
theorem Starting.goes_on (starting : thread.Starting number)
    (inside : thread.points .main ≠ .outside) :
    (∃ next, thread.advance (startProtocol number) .main .worker = .ok next ∧
      thread.Progress (startProtocol number) .main next) ∨
    ∃ next, thread.advance (startProtocol number) .worker .main = .ok next ∧
      thread.Progress (startProtocol number) .worker next := by
  by_cases sleeping : (thread.points .main).Sleeping
  · have awaits := starting.awaits
    have builds := starting.builds
    have ahead : SignalAhead (thread.points .worker) := by
      cases here : thread.points .main with
      | asleep call =>
        rw [here] at awaits
        cases call with
        | build => exact awaits.elim
        | await => exact awaits
      | _ =>
        rw [here] at sleeping
        exact sleeping.elim
    refine @Starting.goes_on_from _ _ starting .worker ?_ ?_
    · intro outside
      rw [outside] at ahead
      exact ahead
    · intro asleep
      cases here : thread.points .worker with
      | asleep call =>
        rw [here] at builds
        cases call <;> exact builds
      | _ =>
        rw [here] at asleep
        exact asleep
  · exact starting.goes_on_from inside sleeping

end LoopThread

namespace PoolStart

/-- The threads before the turn of the main thread have their loops. -/
structure Underway (pool : PoolStart) : Prop where
  starting : ∀ number (thread : LoopThread), pool.eventLoopThreads[number]? = some thread →
    thread.Starting number
  turn : pool.eventLoopThreads.length = pool.i ∨ pool.eventLoopThreads.length = pool.i + 1
  within : pool.eventLoopThreads.length ≤ pool.threadNumber
  built : ∀ number thread, number < pool.i → pool.eventLoopThreads[number]? = some thread →
    thread.data = some (.thread number)

variable {pool next : PoolStart} {number : Nat} {thread : LoopThread}

theorem start_underway (threadNumber : Nat) : (start threadNumber).Underway :=
  ⟨fun _ _ place => (nomatch place), .inl rfl, Nat.zero_le _,
    fun _ _ _ place => (nomatch place)⟩

/-- A thread takes a step, or nothing happens. -/
theorem stepThread_cases {event : MonitorEvent StartThread StartCall}
    (taken : pool.stepThread number event = .ok next) :
    next = pool ∨ ∃ thread after, pool.eventLoopThreads[number]? = some thread ∧
      monitorStep (startProtocol number) thread event = .ok after ∧
      next = { pool with eventLoopThreads := pool.eventLoopThreads.set number after } := by
  unfold stepThread at taken
  cases found : pool.eventLoopThreads[number]? with
  | none =>
    simp only [found, Except.ok.injEq] at taken
    exact .inl taken.symm
  | some thread =>
    cases stepped : monitorStep (startProtocol number) thread event with
    | error stop => exact stop.elim
    | ok after =>
      simp only [found, stepped, Except.ok.injEq] at taken
      exact .inr ⟨thread, after, rfl, stepped, taken.symm⟩

theorem stepThread_ok {event : MonitorEvent StartThread StartCall} {after : LoopThread}
    (found : pool.eventLoopThreads[number]? = some thread)
    (stepped : monitorStep (startProtocol number) thread event = .ok after) :
    pool.stepThread number event =
      .ok { pool with eventLoopThreads := pool.eventLoopThreads.set number after } := by
  simp only [stepThread, found, stepped]

theorem Underway.stepThread {event : MonitorEvent StartThread StartCall} (underway : pool.Underway)
    (begins : ∀ who call, event ≠ .call who call) (wakes : event ≠ .spurious .worker)
    (taken : pool.stepThread number event = .ok next) : next.Underway := by
  rcases stepThread_cases taken with same | ⟨thread, after, found, stepped, same⟩
  · exact same ▸ underway
  · subst same
    have width : (pool.eventLoopThreads.set number after).length =
        pool.eventLoopThreads.length := List.length_set
    refine ⟨?_, ?_, ?_, ?_⟩
    · intro other there place
      by_cases here : number = other
      · subst here
        rw [List.getElem?_set_self (List.getElem?_eq_some_iff.mp found).1] at place
        cases place
        exact (underway.starting number thread found).step begins wakes stepped
      · rw [List.getElem?_set_ne here] at place
        exact underway.starting other there place
    · rw [width]
      exact underway.turn
    · rw [width]
      exact underway.within
    · intro other there before place
      by_cases here : number = other
      · subst here
        rw [List.getElem?_set_self (List.getElem?_eq_some_iff.mp found).1] at place
        cases place
        exact LoopThread.built_stays (underway.built number thread before found) stepped
      · rw [List.getElem?_set_ne here] at place
        exact underway.built other there before place

theorem Underway.step {event : StartEvent} (underway : pool.Underway)
    (taken : startStep pool event = .ok next) : next.Underway := by
  cases event with
  | create =>
    simp only [startStep] at taken
    split at taken
    · cases taken
      obtain ⟨before, nobody⟩ := ‹pool.i < pool.threadNumber ∧ pool.eventLoopThreads.length = pool.i›
      have width : (pool.eventLoopThreads ++ [LoopThread.created]).length = pool.i + 1 := by
        rw [List.length_append, nobody]
        rfl
      refine ⟨?_, .inr width, ?_, ?_⟩
      · intro number thread place
        by_cases old : number < pool.eventLoopThreads.length
        · rw [List.getElem?_append_left old] at place
          exact underway.starting number thread place
        · have last := (List.getElem?_eq_some_iff.mp place).1
          have same : number = pool.eventLoopThreads.length := by
            rw [List.length_append] at last
            simp only [List.length_cons, List.length_nil] at last
            omega
          rw [same, List.getElem?_concat_length] at place
          cases place
          exact LoopThread.created_starting number
      · change (pool.eventLoopThreads ++ [LoopThread.created]).length ≤ _
        rw [width]
        exact before
      · intro number thread early place
        rw [List.getElem?_append_left (nobody ▸ early)] at place
        exact underway.built number thread early place
    · cases taken
      exact underway
  | main => exact underway.stepThread (by simp) (by simp) taken
  | next =>
    simp only [startStep] at taken
    split at taken
    · split at taken
      · cases taken
        have found := ‹pool.eventLoopThreads[pool.i]? = some _›
        have outside := ‹Monitor.points _ StartThread.main = .outside›
        have inside := (List.getElem?_eq_some_iff.mp found).1
        refine ⟨underway.starting, .inl ?_, underway.within, ?_⟩
        · change pool.eventLoopThreads.length = pool.i + 1
          have turn := underway.turn
          omega
        · intro number thread before place
          by_cases last : number = pool.i
          · subst last
            rw [found] at place
            cases place
            have awaits := (underway.starting _ _ found).awaits
            rw [outside] at awaits
            exact awaits
          · have early : number < pool.i + 1 := before
            exact underway.built number thread (by omega) place
      · cases taken
        exact underway
    · cases taken
      exact underway
  | worker number => exact underway.stepThread (by simp) (by simp) taken
  | spurious =>
    have woken : pool.stepThread pool.i (.spurious .main) = .ok next := taken
    exact underway.stepThread (by simp) (by simp) woken

theorem step_threadNumber {event : StartEvent} (taken : startStep pool event = .ok next) :
    next.threadNumber = pool.threadNumber := by
  have thread {number : Nat} {event : MonitorEvent StartThread StartCall}
      (taken : pool.stepThread number event = .ok next) :
      next.threadNumber = pool.threadNumber := by
    rcases stepThread_cases taken with same | ⟨_, _, _, _, same⟩
    · rw [same]
    · rw [same]
  cases event with
  | create =>
    simp only [startStep] at taken
    split at taken <;> cases taken <;> rfl
  | next =>
    simp only [startStep] at taken
    split at taken
    · split at taken <;> cases taken <;> rfl
    · cases taken
      rfl
  | main => exact thread taken
  | worker number => exact thread taken
  | spurious =>
    have woken : pool.stepThread pool.i (.spurious .main) = .ok next := taken
    exact thread woken

theorem run_underway {threadNumber : Nat} {events : List StartEvent}
    (success : run startStep (.start threadNumber) events = .ok pool) :
    pool.Underway ∧ pool.threadNumber = threadNumber :=
  run_keeps (fun pool : PoolStart => pool.Underway ∧ pool.threadNumber = threadNumber)
    (fun _ _ _ kept taken => ⟨kept.1.step taken, (step_threadNumber taken).trans kept.2⟩)
    ⟨start_underway threadNumber, rfl⟩ success

theorem Underway.loops (underway : pool.Underway) :
    (pool.eventLoopThreads.take pool.i).map Monitor.data =
      (List.range pool.i).map fun number => some (LoopRef.thread number) := by
  have turn := underway.turn
  apply List.ext_getElem?
  intro number
  rw [List.getElem?_map, List.getElem?_map]
  by_cases before : number < pool.i
  · have inside : number < pool.eventLoopThreads.length := by omega
    have place := List.getElem?_eq_getElem inside
    rw [List.getElem?_take_of_lt before, List.getElem?_range before, place]
    exact congrArg some (underway.built number _ before place)
  · rw [List.getElem?_eq_none (by rw [List.length_take]; omega),
      List.getElem?_eq_none (by rw [List.length_range]; omega)]
    rfl

/-- The threads whose start has returned have the loops of the pool, and when
`thread_pool_start` returns all threads have them, whatever the order of the steps and however
often the main thread wakes too early. -/
theorem loops_started {threadNumber : Nat} {events : List StartEvent}
    (success : run startStep (.start threadNumber) events = .ok pool) :
    (pool.eventLoopThreads.take pool.i).map Monitor.data =
        ((LoopPool.running threadNumber).eventLoopThreads.take pool.i).map some ∧
      (pool.i = threadNumber → pool.eventLoopThreads.map Monitor.data =
        (LoopPool.running threadNumber).eventLoopThreads.map some) := by
  obtain ⟨underway, number⟩ := run_underway success
  have turn := underway.turn
  have within := underway.within
  have loops := underway.loops
  have all : (LoopPool.running threadNumber).eventLoopThreads =
      (List.range threadNumber).map LoopRef.thread := by
    unfold LoopPool.running
    split
    · have zero : threadNumber = 0 := by omega
      subst zero
      rfl
    · rfl
  have some : (pool.eventLoopThreads.take pool.i).map Monitor.data =
      ((LoopPool.running threadNumber).eventLoopThreads.take pool.i).map some := by
    rw [loops, all, ← List.map_take, List.take_range, List.map_map, Nat.min_eq_left (by omega)]
    rfl
  refine ⟨some, fun finished => ?_⟩
  have complete : pool.eventLoopThreads.length ≤ pool.i := by omega
  rw [List.take_of_length_le complete] at some
  have whole : ((LoopPool.running threadNumber).eventLoopThreads.take pool.i) =
      (LoopPool.running threadNumber).eventLoopThreads := by
    apply List.take_of_length_le
    rw [all, List.length_map, List.length_range]
    omega
  rw [some, whole]

theorem run_returns (pool : PoolStart) (events : List StartEvent) :
    ∃ final, run startStep pool events = .ok final := by
  cases success : run startStep pool events with
  | ok final => exact ⟨final, rfl⟩
  | error stop => exact stop.elim

/-- The main thread finds no loop and sleeps, wakes too early and sleeps again, up to the
signal of the thread it has created. -/
def sleepyStart : List StartEvent :=
  [.create, .main, .main, .spurious, .main, .main] ++ List.replicate 6 (.worker 0) ++
    List.replicate 5 .main ++ [.next]

theorem loops_started_sample : ∃ pool, run startStep (.start 1) sleepyStart = .ok pool ∧
    pool.i = 1 ∧ pool.eventLoopThreads.map Monitor.data =
      (LoopPool.running 1).eventLoopThreads.map some := by
  obtain ⟨pool, success⟩ := run_returns (.start 1) sleepyStart
  have turns : (run startStep (.start 1) sleepyStart).map PoolStart.i = .ok 1 := by decide +kernel
  rw [success] at turns
  have finished : pool.i = 1 := Except.ok.inj turns
  exact ⟨pool, success, finished, (loops_started success).2 finished⟩

/-- What is left to do for the threads that exist. -/
def effort (threads : List LoopThread) : Nat :=
  (threads.map fun thread => thread.total (Point.rank (startProtocol 0))).sum

/-- An upper bound for the steps until all threads are in `event_loop_run`. -/
def work (pool : PoolStart) : Nat :=
  (pool.threadNumber - pool.eventLoopThreads.length) * 18 + (pool.threadNumber - pool.i) +
    effort pool.eventLoopThreads

theorem rank_eq (number : Nat) : Point.rank (startProtocol number) =
    Point.rank (startProtocol 0) := rfl

theorem effort_set {threads : List LoopThread} (found : threads[number]? = some thread)
    (after : LoopThread) : effort (threads.set number after) +
      thread.total (Point.rank (startProtocol 0)) =
    effort threads + after.total (Point.rank (startProtocol 0)) := by
  induction threads generalizing number with
  | nil => cases found
  | cons head threads ih =>
    cases number with
    | zero =>
      cases found
      simp only [effort, List.set_cons_zero, List.map_cons, List.sum_cons]
      omega
    | succ number =>
      have rest := ih found
      simp only [effort, List.set_cons_succ, List.map_cons, List.sum_cons] at rest ⊢
      omega

theorem effort_created : effort [LoopThread.created] = 17 := by decide

/-- A step of a thread that changes something leaves less to do. -/
theorem Underway.work_progress {after : LoopThread} {who : StartThread}
    (underway : pool.Underway) (found : pool.eventLoopThreads[number]? = some thread)
    (progress : thread.Progress (startProtocol number) who after) :
    work { pool with eventLoopThreads := pool.eventLoopThreads.set number after } <
      pool.work := by
  have less := progress.rank (underway.starting number thread found).sound
  rw [rank_eq] at less
  have moved := effort_set found after
  simp only [work, List.length_set]
  omega

/-- As long as `thread_pool_start` has not returned there is a step that leaves less to do. -/
theorem Underway.goes_on (underway : pool.Underway) (unfinished : pool.i < pool.threadNumber) :
    ∃ event next, event ≠ .spurious ∧ startStep pool event = .ok next ∧ next.work < pool.work := by
  rcases underway.turn with fresh | created
  · have taken : startStep pool .create = .ok { pool with
        eventLoopThreads := pool.eventLoopThreads ++ [.created] } := if_pos ⟨unfinished, fresh⟩
    refine ⟨.create, _, by decide, taken, ?_⟩
    have created := effort_created
    simp only [work, effort, List.length_append, List.map_append, List.sum_append,
      List.length_cons, List.length_nil] at created ⊢
    omega
  · have inside : pool.i < pool.eventLoopThreads.length := by omega
    have found := List.getElem?_eq_getElem inside
    have starting := underway.starting _ _ found
    by_cases outside : (pool.eventLoopThreads[pool.i]).points StartThread.main = .outside
    · refine ⟨.next, { pool with i := pool.i + 1 }, by decide, ?_, ?_⟩
      · simp only [startStep, found, outside]
      · simp only [work]
        omega
    · rcases starting.goes_on outside with ⟨after, taken, progress⟩ | ⟨after, taken, progress⟩
      · exact ⟨.main, _, by decide, stepThread_ok found taken,
          underway.work_progress found progress⟩
      · exact ⟨.worker pool.i, _, by simp, stepThread_ok found taken,
          underway.work_progress found progress⟩

/-- It can always come to its end without waking too early. -/
theorem Underway.finishes (underway : pool.Underway) (within : pool.i ≤ pool.threadNumber) :
    ∃ more final, .spurious ∉ more ∧ run startStep pool more = .ok final ∧
      final.i = final.threadNumber := by
  obtain ⟨more, final, ordinary, success, _, finished⟩ := run_settles
    (fun event => event ≠ StartEvent.spurious) (fun pool => pool.i = pool.threadNumber)
    (fun pool => pool.Underway ∧ pool.i ≤ pool.threadNumber) PoolStart.work (by
      intro pool ⟨underway, within⟩ unfinished
      obtain ⟨event, next, ordinary, taken, less⟩ := underway.goes_on (by omega)
      have kept := underway.step taken
      have turn := kept.turn
      have bound := kept.within
      exact ⟨event, next, ordinary, taken, ⟨kept, by omega⟩, less⟩)
    ⟨underway, within⟩
  exact ⟨more, final, fun member => ordinary _ member rfl, success, finished⟩

end PoolStart

end Yolanda
