import Yolanda.Foundation.Run
import Mathlib.Logic.Function.Basic

/-! Threads that share data behind one mutex and one condition variable. A call takes the
mutex, waits as long as its condition does not hold, runs its statements, signals perhaps,
and gives the mutex back. Threads take turns between any two of these, a signal wakes some
sleeper if there is one, and a sleeper may wake without a signal. -/

namespace Yolanda.Foundation

universe u v w x y z
variable {Thread : Type u} {Call : Type v} {Statement : Type w} {Frame : Type x} {Data : Type y}
  {Stop : Type z}

/-- What the calls on the shared data do while they have the mutex. -/
structure Protocol (Call : Type v) (Statement : Type w) (Frame : Type x) (Data : Type y)
    (Stop : Type z) where
  ready : Data → Call → Bool
  locals : Call → Frame
  statements : Call → List Statement
  execute : Data × Frame → Statement → Except Stop (Data × Frame)
  signals : Call → Bool

/-- Where a thread stands. -/
inductive Point (Call : Type v) (Statement : Type w) (Frame : Type x) where
  | outside
  /-- Before the mutex, at the start of the call or behind a wait. -/
  | entering (call : Call)
  /-- Before the test of the condition. -/
  | testing (call : Call)
  | asleep (call : Call)
  /-- With statements to run. -/
  | inside (call : Call) (rest : List Statement) (frame : Frame)
  | signalling (call : Call) (frame : Frame)
  | leaving (call : Call) (frame : Frame)

/-- The shared data, the mutex and the threads that sleep on the condition; and the calls whose
statements have been run, with the local variables they ended with and the data they left. -/
structure Monitor (Thread : Type u) (Call : Type v) (Statement : Type w) (Frame : Type x)
    (Data : Type y) where
  data : Data
  holder : Option Thread
  sleepers : List Thread
  points : Thread → Point Call Statement Frame
  committed : List (Thread × Call × Frame)
  settled : Data

inductive MonitorEvent (Thread : Type u) (Call : Type v) where
  | call (thread : Thread) (call : Call)
  /-- A thread goes on; should it signal, the chosen one wakes. -/
  | advance (thread chosen : Thread)
  | spurious (thread : Thread)

namespace Point

/-- The thread has the mutex. -/
def Holding : Point Call Statement Frame → Prop
  | .testing _ | .inside _ _ _ | .signalling _ _ | .leaving _ _ => True
  | _ => False

def Sleeping : Point Call Statement Frame → Prop
  | .asleep _ => True
  | _ => False

end Point

/-- Behind the statements of a call. -/
def Point.behind (protocol : Protocol Call Statement Frame Data Stop) (call : Call)
    (frame : Frame) : Point Call Statement Frame :=
  if protocol.signals call then .signalling call frame else .leaving call frame

namespace Monitor

def start (data : Data) : Monitor Thread Call Statement Frame Data :=
  { data, holder := none, sleepers := [], points := fun _ => .outside, committed := []
    settled := data }

/-- Where the thread with the mutex stands. -/
def active (monitor : Monitor Thread Call Statement Frame Data) : Point Call Statement Frame :=
  match monitor.holder with
  | some thread => monitor.points thread
  | none => .outside

variable [DecidableEq Thread]

def move (monitor : Monitor Thread Call Statement Frame Data) (thread : Thread)
    (point : Point Call Statement Frame) : Monitor Thread Call Statement Frame Data :=
  { monitor with points := Function.update monitor.points thread point }

/-- A sleeper that goes back for the mutex. -/
def wake (monitor : Monitor Thread Call Statement Frame Data) (thread : Thread) :
    Monitor Thread Call Statement Frame Data :=
  match monitor.points thread with
  | .asleep call =>
    { monitor.move thread (.entering call) with
      sleepers := monitor.sleepers.erase thread }
  | _ => monitor

/-- The next thing a thread does; where it cannot go on nothing changes. -/
def advance (protocol : Protocol Call Statement Frame Data Stop)
    (monitor : Monitor Thread Call Statement Frame Data) (thread chosen : Thread) :
    Except Stop (Monitor Thread Call Statement Frame Data) :=
  match monitor.points thread with
  | .outside | .asleep _ => .ok monitor
  | .entering call =>
    match monitor.holder with
    | none => .ok { monitor.move thread (.testing call) with
        holder := some thread }
    | some _ => .ok monitor
  | .testing call =>
    if protocol.ready monitor.data call then
      .ok (monitor.move thread (.inside call (protocol.statements call) (protocol.locals call)))
    else
      .ok { monitor.move thread (.asleep call) with
        holder := none
        sleepers := thread :: monitor.sleepers }
  | .inside call (statement :: rest) frame =>
    match protocol.execute (monitor.data, frame) statement with
    | .ok (data, frame) => .ok { monitor.move thread (.inside call rest frame) with
        data }
    | .error stop => .error stop
  | .inside call [] frame =>
    .ok { monitor.move thread (.behind protocol call frame) with
      committed := monitor.committed ++ [(thread, call, frame)]
      settled := monitor.data }
  | .signalling call frame =>
    if monitor.sleepers = [] then .ok (monitor.move thread (.leaving call frame))
    else if chosen ∈ monitor.sleepers then
      .ok ((monitor.wake chosen).move thread (.leaving call frame))
    else .ok monitor
  | .leaving _ _ =>
    .ok { monitor.move thread .outside with
      holder := none }

end Monitor

/-- A step of the threads; one that cannot be taken changes nothing. -/
def monitorStep [DecidableEq Thread] (protocol : Protocol Call Statement Frame Data Stop)
    (monitor : Monitor Thread Call Statement Frame Data) :
    MonitorEvent Thread Call → Except Stop (Monitor Thread Call Statement Frame Data)
  | .call thread call =>
    match monitor.points thread with
    | .outside => .ok (monitor.move thread (.entering call))
    | _ => .ok monitor
  | .advance thread chosen => monitor.advance protocol thread chosen
  | .spurious thread => .ok (monitor.wake thread)

namespace Protocol

variable {protocol : Protocol Call Statement Frame Data Stop}

/-- A call as a whole. -/
def whole (protocol : Protocol Call Statement Frame Data Stop) (data : Data) (call : Call) :
    Except Stop (Data × Frame) :=
  run protocol.execute (data, protocol.locals call) (protocol.statements call)

/-- Calls that are made one after the other, none of which had to wait. -/
inductive Serial (protocol : Protocol Call Statement Frame Data Stop) (start : Data) :
    List (Thread × Call × Frame) → Data → Prop where
  | nil : Serial protocol start [] start
  | concat {thread : Thread} (before : Serial protocol start calls base)
      (ready : protocol.ready base call = true)
      (made : protocol.whole base call = .ok (data, frame)) :
      Serial protocol start (calls ++ [(thread, call, frame)]) data

/-- A call fails that is made behind others. -/
def Fails (protocol : Protocol Call Statement Frame Data Stop) (Thread : Type u) (start : Data)
    (stop : Stop) : Prop :=
  ∃ (calls : List (Thread × Call × Frame)) (base : Data) (call : Call),
    protocol.Serial start calls base ∧ protocol.ready base call = true ∧
      protocol.whole base call = .error stop

/-- What the thread with the mutex has made of the data that the calls before it left. -/
def Agrees (protocol : Protocol Call Statement Frame Data Stop) (data base : Data) :
    Point Call Statement Frame → Prop
  | .inside call rest frame => protocol.ready base call = true ∧
      run protocol.execute (data, frame) rest = protocol.whole base call
  | _ => data = base

end Protocol

namespace Monitor

section Steps

variable [DecidableEq Thread] {protocol : Protocol Call Statement Frame Data Stop}
  {monitor next : Monitor Thread Call Statement Frame Data} {thread other : Thread}
  {point : Point Call Statement Frame}

theorem move_points (monitor : Monitor Thread Call Statement Frame Data) (thread : Thread)
    (point : Point Call Statement Frame) :
    (monitor.move thread point).points = Function.update monitor.points thread point := rfl

@[simp] theorem move_points_self (monitor : Monitor Thread Call Statement Frame Data)
    (thread : Thread) (point : Point Call Statement Frame) :
    (monitor.move thread point).points thread = point := Function.update_self ..

theorem move_points_of_ne (monitor : Monitor Thread Call Statement Frame Data)
    (apart : other ≠ thread) (point : Point Call Statement Frame) :
    (monitor.move thread point).points other = monitor.points other :=
  Function.update_of_ne apart ..

theorem wake_points_of_ne (monitor : Monitor Thread Call Statement Frame Data)
    (apart : other ≠ thread) : (monitor.wake thread).points other = monitor.points other := by
  unfold wake
  split
  · exact move_points_of_ne monitor apart _
  · rfl

/-- The steps of a thread that change something. -/
inductive Progress (protocol : Protocol Call Statement Frame Data Stop)
    (monitor : Monitor Thread Call Statement Frame Data) (thread : Thread) :
    Monitor Thread Call Statement Frame Data → Prop where
  | locks (here : monitor.points thread = .entering call) (free : monitor.holder = none) :
      Progress protocol monitor thread { monitor.move thread (.testing call) with
        holder := some thread }
  | passes (here : monitor.points thread = .testing call)
      (ready : protocol.ready monitor.data call = true) :
      Progress protocol monitor thread
        (monitor.move thread (.inside call (protocol.statements call) (protocol.locals call)))
  | waits (here : monitor.points thread = .testing call)
      (unready : protocol.ready monitor.data call = false) :
      Progress protocol monitor thread { monitor.move thread (.asleep call) with
        holder := none
        sleepers := thread :: monitor.sleepers }
  | executes {data : Data} {after : Frame}
      (here : monitor.points thread = .inside call (statement :: rest) frame)
      (executed : protocol.execute (monitor.data, frame) statement = .ok (data, after)) :
      Progress protocol monitor thread { monitor.move thread (.inside call rest after) with
        data }
  | commits (here : monitor.points thread = .inside call [] frame) :
      Progress protocol monitor thread
        { monitor.move thread (.behind protocol call frame) with
          committed := monitor.committed ++ [(thread, call, frame)]
          settled := monitor.data }
  | signals (here : monitor.points thread = .signalling call frame)
      (nobody : monitor.sleepers = []) :
      Progress protocol monitor thread (monitor.move thread (.leaving call frame))
  | wakes {chosen : Thread} (here : monitor.points thread = .signalling call frame)
      (member : chosen ∈ monitor.sleepers) :
      Progress protocol monitor thread ((monitor.wake chosen).move thread (.leaving call frame))
  | leaves (here : monitor.points thread = .leaving call frame) :
      Progress protocol monitor thread { monitor.move thread .outside with
        holder := none }

theorem advance_cases {chosen : Thread}
    (taken : monitor.advance protocol thread chosen = .ok next) :
    next = monitor ∨ monitor.Progress protocol thread next := by
  cases here : monitor.points thread with
  | outside =>
    simp only [advance, here, Except.ok.injEq] at taken
    exact .inl taken.symm
  | asleep call =>
    simp only [advance, here, Except.ok.injEq] at taken
    exact .inl taken.symm
  | entering call =>
    cases free : monitor.holder with
    | none =>
      simp only [advance, here, free, Except.ok.injEq] at taken
      exact taken ▸ .inr (.locks here free)
    | some owner =>
      simp only [advance, here, free, Except.ok.injEq] at taken
      exact .inl taken.symm
  | testing call =>
    cases test : protocol.ready monitor.data call with
    | true =>
      simp only [advance, here, test, if_true, Except.ok.injEq] at taken
      exact taken ▸ .inr (.passes here test)
    | false =>
      simp only [advance, here, test, Bool.false_eq_true, if_false, Except.ok.injEq] at taken
      exact taken ▸ .inr (.waits here test)
  | inside call rest frame =>
    cases rest with
    | nil =>
      simp only [advance, here, Except.ok.injEq] at taken
      exact taken ▸ .inr (.commits here)
    | cons statement rest =>
      cases executed : protocol.execute (monitor.data, frame) statement with
      | error stop => simp [advance, here, executed] at taken
      | ok after =>
        simp only [advance, here, executed, Except.ok.injEq] at taken
        exact taken ▸ .inr (.executes here executed)
  | signalling call frame =>
    by_cases nobody : monitor.sleepers = []
    · simp only [advance, here, nobody, if_true, Except.ok.injEq] at taken
      exact taken ▸ .inr (.signals here nobody)
    · by_cases member : chosen ∈ monitor.sleepers
      · simp only [advance, here, nobody, member, if_true, if_false, Except.ok.injEq] at taken
        exact taken ▸ .inr (.wakes here member)
      · simp only [advance, here, nobody, member, if_false, Except.ok.injEq] at taken
        exact .inl taken.symm
  | leaving call frame =>
    simp only [advance, here, Except.ok.injEq] at taken
    exact taken ▸ .inr (.leaves here)

/-- Only a statement fails. -/
theorem advance_error {chosen : Thread}
    (failed : monitor.advance protocol thread chosen = .error stop) :
    ∃ call statement rest frame, monitor.points thread = .inside call (statement :: rest) frame ∧
      protocol.execute (monitor.data, frame) statement = .error stop := by
  cases here : monitor.points thread with
  | outside => simp [advance, here] at failed
  | asleep call => simp [advance, here] at failed
  | entering call =>
    simp only [advance, here] at failed
    split at failed <;> cases failed
  | testing call =>
    simp only [advance, here] at failed
    split at failed <;> cases failed
  | inside call rest frame =>
    cases rest with
    | nil => simp [advance, here] at failed
    | cons statement rest =>
      cases executed : protocol.execute (monitor.data, frame) statement with
      | error fault =>
        simp only [advance, here, executed, Except.error.injEq] at failed
        exact ⟨call, statement, rest, frame, rfl, failed ▸ executed⟩
      | ok after => simp [advance, here, executed] at failed
  | signalling call frame =>
    simp only [advance, here] at failed
    split at failed
    · cases failed
    · split at failed <;> cases failed
  | leaving call frame => simp [advance, here] at failed

/-- Only the thread with the mutex is in a critical section, the condition knows its sleepers,
and the statements that have been run make up calls that are made as a whole. -/
structure Sound (protocol : Protocol Call Statement Frame Data Stop) (start : Data)
    (monitor : Monitor Thread Call Statement Frame Data) : Prop where
  holds : ∀ thread, (monitor.points thread).Holding ↔ monitor.holder = some thread
  sleeps : ∀ thread, (monitor.points thread).Sleeping ↔ thread ∈ monitor.sleepers
  once : monitor.sleepers.Nodup
  serial : protocol.Serial start monitor.committed monitor.settled
  agrees : protocol.Agrees monitor.data monitor.settled monitor.active

omit [DecidableEq Thread] in
theorem start_sound (protocol : Protocol Call Statement Frame Data Stop) (data : Data) :
    (Monitor.start data : Monitor Thread Call Statement Frame Data).Sound protocol data := by
  constructor
  · intro thread
    simp [start, Point.Holding]
  · intro thread
    simp [start, Point.Sleeping]
  · exact List.nodup_nil
  · exact .nil
  · rfl

omit [DecidableEq Thread] in
theorem active_of_holder (held : monitor.holder = some thread) :
    monitor.active = monitor.points thread := by
  simp only [active, held]

omit [DecidableEq Thread] in
theorem active_of_free (free : monitor.holder = none) : monitor.active = .outside := by
  simp only [active, free]

variable {start : Data}

omit [DecidableEq Thread] in
/-- The thread that stands in a critical section is the active one. -/
theorem Sound.active_eq (sound : monitor.Sound protocol start)
    (holding : (monitor.points thread).Holding) : monitor.active = monitor.points thread :=
  active_of_holder ((sound.holds thread).mp holding)

/-- One thread goes elsewhere, the calls that were made stay. -/
theorem Sound.relocate (sound : monitor.Sound protocol start)
    (points : next.points = Function.update monitor.points thread point)
    (own : point.Holding ↔ next.holder = some thread)
    (holders : ∀ other, other ≠ thread →
      (monitor.holder = some other ↔ next.holder = some other))
    (rests : point.Sleeping ↔ thread ∈ next.sleepers)
    (others : ∀ other, other ≠ thread → (other ∈ monitor.sleepers ↔ other ∈ next.sleepers))
    (once : next.sleepers.Nodup) (serial : protocol.Serial start next.committed next.settled)
    (agrees : protocol.Agrees next.data next.settled next.active) : next.Sound protocol start := by
  refine ⟨?_, ?_, once, serial, agrees⟩
  · intro other
    by_cases same : other = thread
    · rw [same, points, Function.update_self]
      exact own
    · rw [points, Function.update_of_ne same, sound.holds other]
      exact holders other same
  · intro other
    by_cases same : other = thread
    · rw [same, points, Function.update_self]
      exact rests
    · rw [points, Function.update_of_ne same, sound.sleeps other]
      exact others other same

theorem Sound.wake (sound : monitor.Sound protocol start) (chosen : Thread) :
    (monitor.wake chosen).Sound protocol start := by
  cases here : monitor.points chosen with
  | asleep call =>
    have idle : monitor.holder ≠ some chosen := by
      intro held
      have holding := (sound.holds chosen).mpr held
      rw [here] at holding
      exact holding
    have woken : monitor.wake chosen = { monitor.move chosen (.entering call) with
        sleepers := monitor.sleepers.erase chosen } := by
      simp only [Monitor.wake, here]
    have active : (monitor.wake chosen).active = monitor.active := by
      rw [woken]
      cases held : monitor.holder with
      | none => simp [Monitor.active, move, held]
      | some owner =>
        have apart : owner ≠ chosen := fun same => idle (same ▸ held)
        simp [Monitor.active, move, held, Function.update_of_ne apart]
    rw [woken] at active ⊢
    refine sound.relocate rfl ?_ ?_ ?_ ?_ ?_ sound.serial ?_
    · exact ⟨False.elim, fun held => idle held⟩
    · exact fun _ _ => Iff.rfl
    · exact ⟨False.elim, fun member => (sound.once.mem_erase_iff.mp member).1 rfl⟩
    · exact fun other apart => (List.mem_erase_of_ne apart).symm
    · exact sound.once.erase chosen
    · rw [active]
      exact sound.agrees
  | _ =>
    simp only [Monitor.wake, here]
    exact sound

omit [DecidableEq Thread] in
/-- A thread at a place without a critical section does not have the mutex. -/
theorem Sound.not_holder (sound : monitor.Sound protocol start)
    (apart : ¬ (monitor.points thread).Holding) : monitor.holder ≠ some thread :=
  fun held => apart ((sound.holds thread).mpr held)

omit [DecidableEq Thread] in
theorem Sound.not_sleeper (sound : monitor.Sound protocol start)
    (up : ¬ (monitor.points thread).Sleeping) : thread ∉ monitor.sleepers :=
  fun member => up ((sound.sleeps thread).mpr member)

/-- A thread goes on inside its critical section. -/
theorem Sound.within (sound : monitor.Sound protocol start)
    (holding : (monitor.points thread).Holding) (up : ¬ (monitor.points thread).Sleeping)
    (points : next.points = Function.update monitor.points thread point)
    (keeps : point.Holding) (awake : ¬ point.Sleeping) (holder : next.holder = monitor.holder)
    (sleepers : next.sleepers = monitor.sleepers)
    (serial : protocol.Serial start next.committed next.settled)
    (agrees : protocol.Agrees next.data next.settled point) : next.Sound protocol start := by
  have held := (sound.holds thread).mp holding
  refine sound.relocate points ?_ ?_ ?_ ?_ ?_ serial ?_
  · rw [holder]
    exact ⟨fun _ => held, fun _ => keeps⟩
  · intro other _
    rw [holder]
  · rw [sleepers]
    exact ⟨fun sleeping => absurd sleeping awake,
      fun member => absurd member (sound.not_sleeper up)⟩
  · intro other _
    rw [sleepers]
  · rw [sleepers]
    exact sound.once
  · have active : next.active = point := by
      rw [active_of_holder (holder.trans held), points, Function.update_self]
    rw [active]
    exact agrees

/-- A thread gives the mutex back, where its statements have all been run or none. -/
theorem Sound.releases (sound : monitor.Sound protocol start)
    (holding : (monitor.points thread).Holding) (settled : monitor.data = monitor.settled)
    (points : next.points = Function.update monitor.points thread point)
    (gone : ¬ point.Holding) (holder : next.holder = none)
    (rests : point.Sleeping ↔ thread ∈ next.sleepers)
    (others : ∀ other, other ≠ thread → (other ∈ monitor.sleepers ↔ other ∈ next.sleepers))
    (once : next.sleepers.Nodup) (data : next.data = monitor.data)
    (serial : next.committed = monitor.committed ∧ next.settled = monitor.settled) :
    next.Sound protocol start := by
  have held := (sound.holds thread).mp holding
  refine sound.relocate points ?_ ?_ rests others once ?_ ?_
  · rw [holder]
    exact ⟨fun keeps => absurd keeps gone, fun empty => (nomatch empty)⟩
  · intro other apart
    rw [holder, held]
    exact ⟨fun same => absurd (Option.some.inj same).symm apart, fun empty => (nomatch empty)⟩
  · rw [serial.1, serial.2]
    exact sound.serial
  · rw [active_of_free holder, data, serial.2]
    exact settled

theorem Sound.progress (sound : monitor.Sound protocol start)
    (taken : monitor.Progress protocol thread next) : next.Sound protocol start := by
  cases taken with
  | locks here free =>
    refine sound.relocate rfl ⟨fun _ => rfl, fun _ => trivial⟩ ?_ ?_ (fun _ _ => Iff.rfl)
      sound.once sound.serial ?_
    · intro other apart
      rw [free]
      exact ⟨fun empty => (nomatch empty), fun same => absurd (Option.some.inj same).symm apart⟩
    · have up : thread ∉ monitor.sleepers := sound.not_sleeper (by rw [here]; exact id)
      exact ⟨False.elim, fun member => absurd member up⟩
    · have agrees := sound.agrees
      rw [active_of_free free] at agrees
      simp only [active, move_points_self]
      exact agrees
  | passes here ready =>
    have agrees := sound.agrees
    rw [sound.active_eq (by rw [here]; trivial), here] at agrees
    refine sound.within (by rw [here]; trivial) (by rw [here]; exact id) rfl trivial id rfl rfl
      sound.serial ?_
    have settled : monitor.data = monitor.settled := agrees
    change protocol.ready monitor.settled _ = true ∧ run _ (monitor.data, _) _ = _
    rw [settled] at ready ⊢
    exact ⟨ready, rfl⟩
  | waits here unready =>
    have agrees := sound.agrees
    rw [sound.active_eq (by rw [here]; trivial), here] at agrees
    have fresh : thread ∉ monitor.sleepers := sound.not_sleeper (by rw [here]; exact id)
    refine sound.releases (by rw [here]; trivial) agrees rfl id rfl ?_ ?_
      (List.nodup_cons.mpr ⟨fresh, sound.once⟩) rfl ⟨rfl, rfl⟩
    · exact ⟨fun _ => List.mem_cons_self .., fun _ => trivial⟩
    · intro other apart
      exact (List.mem_cons.trans (or_iff_right apart)).symm
  | executes here executed =>
    have agrees := sound.agrees
    rw [sound.active_eq (by rw [here]; trivial), here] at agrees
    refine sound.within (by rw [here]; trivial) (by rw [here]; exact id) rfl trivial id rfl rfl
      sound.serial ⟨agrees.1, ?_⟩
    exact (run_cons executed _).symm.trans agrees.2
  | commits here =>
    have agrees := sound.agrees
    rw [sound.active_eq (by rw [here]; trivial), here] at agrees
    refine sound.within (by rw [here]; trivial) (by rw [here]; exact id) rfl ?_ ?_ rfl rfl
      (sound.serial.concat agrees.1 agrees.2.symm) ?_
    · unfold Point.behind
      split <;> trivial
    · unfold Point.behind
      split <;> exact id
    · change protocol.Agrees monitor.data monitor.data _
      unfold Point.behind
      split <;> rfl
  | signals here nobody =>
    have agrees := sound.agrees
    rw [sound.active_eq (by rw [here]; trivial), here] at agrees
    exact sound.within (by rw [here]; trivial) (by rw [here]; exact id) rfl trivial id rfl rfl
      sound.serial agrees
  | @wakes call frame chosen here member =>
    have apart : thread ≠ chosen := by
      intro same
      have sleeping := (sound.sleeps chosen).mpr member
      rw [← same, here] at sleeping
      exact sleeping
    have woken := sound.wake chosen
    have still : (monitor.wake chosen).points thread = .signalling call frame := by
      rw [wake_points_of_ne _ apart, here]
    have agrees := woken.agrees
    rw [woken.active_eq (by rw [still]; trivial), still] at agrees
    exact woken.within (by rw [still]; trivial) (by rw [still]; exact id) rfl trivial id rfl rfl
      woken.serial agrees
  | leaves here =>
    have agrees := sound.agrees
    rw [sound.active_eq (by rw [here]; trivial), here] at agrees
    refine sound.releases (by rw [here]; trivial) agrees rfl id rfl ?_ (fun _ _ => Iff.rfl)
      sound.once rfl ⟨rfl, rfl⟩
    exact ⟨False.elim, fun member =>
      absurd member (sound.not_sleeper (by rw [here]; exact id))⟩

omit [DecidableEq Thread] in
/-- A call is made when the data are as the calls before it left them. -/
theorem Sound.settled_eq (sound : monitor.Sound protocol start)
    (apart : ∀ call rest frame, monitor.points thread ≠ .inside call rest frame)
    (holding : (monitor.points thread).Holding) : monitor.data = monitor.settled := by
  have agrees := sound.agrees
  rw [sound.active_eq holding] at agrees
  cases here : monitor.points thread with
  | inside call rest frame => exact absurd here (apart call rest frame)
  | _ =>
    rw [here] at agrees
    exact agrees

theorem Sound.step {event : MonitorEvent Thread Call} (sound : monitor.Sound protocol start)
    (taken : monitorStep protocol monitor event = .ok next) : next.Sound protocol start := by
  cases event with
  | call thread call =>
    cases here : monitor.points thread with
    | outside =>
      simp only [monitorStep, here, Except.ok.injEq] at taken
      subst taken
      have idle : monitor.holder ≠ some thread := sound.not_holder (by rw [here]; exact id)
      have up : thread ∉ monitor.sleepers := sound.not_sleeper (by rw [here]; exact id)
      refine sound.relocate rfl ⟨False.elim, fun held => idle held⟩ (fun _ _ => Iff.rfl)
        ⟨False.elim, fun member => up member⟩ (fun _ _ => Iff.rfl) sound.once sound.serial ?_
      have active : (monitor.move thread (.entering call)).active = monitor.active := by
        cases held : monitor.holder with
        | none => simp [active, move, held]
        | some owner =>
          have apart : owner ≠ thread := fun same => idle (same ▸ held)
          simp [Monitor.active, move, held, Function.update_of_ne apart]
      rw [active]
      exact sound.agrees
    | _ =>
      simp only [monitorStep, here, Except.ok.injEq] at taken
      exact taken ▸ sound
  | advance thread chosen =>
    rcases advance_cases taken with same | progress
    · exact same ▸ sound
    · exact sound.progress progress
  | spurious thread =>
    simp only [monitorStep, Except.ok.injEq] at taken
    exact taken ▸ sound.wake thread

/-- The calls of any run of the threads, in the order in which they were made, are calls made
one after the other. -/
theorem run_sound {events : List (MonitorEvent Thread Call)}
    (success : run (monitorStep protocol) (Monitor.start start) events = .ok next) :
    next.Sound protocol start :=
  run_keeps (fun monitor : Monitor Thread Call Statement Frame Data => monitor.Sound protocol start)
    (fun _ _ _ sound taken => sound.step taken) (start_sound protocol start) success

/-- A failure is the failure of a call that is made as a whole behind others. -/
theorem run_fails {events : List (MonitorEvent Thread Call)} {stop : Stop}
    (failure : run (monitorStep protocol) (Monitor.start start) events = .error stop) :
    protocol.Fails Thread start stop := by
  refine run_stops
    (fun monitor : Monitor Thread Call Statement Frame Data => monitor.Sound protocol start)
    (fun _ _ _ sound taken => sound.step taken) ?_ (start_sound protocol start) failure
  intro monitor event stop sound failed
  cases event with
  | call thread call =>
    simp only [monitorStep] at failed
    split at failed <;> cases failed
  | advance thread chosen =>
    obtain ⟨call, statement, rest, frame, here, failed⟩ := advance_error failed
    have agrees := sound.agrees
    rw [sound.active_eq (by rw [here]; trivial), here] at agrees
    refine ⟨monitor.committed, monitor.settled, call, sound.serial, agrees.1, ?_⟩
    rw [← agrees.2, run, failed]
  | spurious thread => cases failed

theorem wake_data (monitor : Monitor Thread Call Statement Frame Data)
    (chosen : Thread) : (monitor.wake chosen).data = monitor.data := by
  unfold wake
  split <;> rfl

/-- Whom a signal wakes is of no matter to a thread that does not signal. -/
theorem advance_chosen {chosen : Thread}
    (silent : ∀ call frame, monitor.points thread ≠ .signalling call frame) (other : Thread) :
    monitor.advance protocol thread chosen = monitor.advance protocol thread other := by
  cases here : monitor.points thread with
  | signalling call frame => exact absurd here (silent call frame)
  | inside call rest frame =>
    cases rest with
    | nil => simp only [advance, here]
    | cons statement rest => simp only [advance, here]
  | _ => simp only [advance, here]

/-- The thread with the mutex goes on. -/
theorem Sound.holder_goes_on (sound : monitor.Sound protocol start)
    (held : monitor.holder = some thread) :
    ∃ chosen, (∃ next, monitor.advance protocol thread chosen = .ok next ∧
      monitor.Progress protocol thread next) ∨
      ∃ stop, monitor.advance protocol thread chosen = .error stop := by
  have holding := (sound.holds thread).mpr held
  cases here : monitor.points thread with
  | outside =>
    rw [here] at holding
    exact holding.elim
  | entering call =>
    rw [here] at holding
    exact holding.elim
  | asleep call =>
    rw [here] at holding
    exact holding.elim
  | testing call =>
    refine ⟨thread, .inl ?_⟩
    cases test : protocol.ready monitor.data call with
    | true => exact ⟨_, by simp only [advance, here, test, if_true], .passes here test⟩
    | false =>
      exact ⟨_, by simp only [advance, here, test, Bool.false_eq_true, if_false], .waits here test⟩
  | inside call rest frame =>
    refine ⟨thread, ?_⟩
    cases rest with
    | nil => exact .inl ⟨_, by simp only [advance, here], .commits here⟩
    | cons statement rest =>
      cases executed : protocol.execute (monitor.data, frame) statement with
      | error stop => exact .inr ⟨stop, by simp only [advance, here, executed]⟩
      | ok after =>
        exact .inl ⟨_, by simp only [advance, here, executed], .executes here executed⟩
  | signalling call frame =>
    cases nobody : monitor.sleepers with
    | nil =>
      refine ⟨thread, .inl ⟨_, ?_, .signals here nobody⟩⟩
      simp only [advance, here, nobody, if_true]
    | cons chosen others =>
      have member : chosen ∈ monitor.sleepers := by
        rw [nobody]
        exact List.mem_cons_self ..
      refine ⟨chosen, .inl ⟨_, ?_, .wakes here member⟩⟩
      simp only [advance, here, nobody, reduceCtorEq, if_false]
      rw [← nobody, if_pos member]
  | leaving call frame =>
    exact ⟨thread, .inl ⟨_, by simp only [advance, here], .leaves here⟩⟩

/-- As long as a thread is in a call and does not sleep, some thread goes on. -/
theorem Sound.goes_on (sound : monitor.Sound protocol start)
    (busy : monitor.points thread ≠ .outside) (awake : ¬ (monitor.points thread).Sleeping) :
    ∃ other chosen, (∃ next, monitor.advance protocol other chosen = .ok next ∧
      monitor.Progress protocol other next) ∨
      ∃ stop, monitor.advance protocol other chosen = .error stop := by
  cases held : monitor.holder with
  | some owner => exact ⟨owner, sound.holder_goes_on held⟩
  | none =>
    have idle : ¬ (monitor.points thread).Holding := by
      intro holding
      rw [(sound.holds thread).mp holding] at held
      cases held
    cases here : monitor.points thread with
    | outside => exact absurd here busy
    | entering call =>
      exact ⟨thread, thread, .inl ⟨_, by simp only [advance, here, held], .locks here held⟩⟩
    | asleep call =>
      rw [here] at awake
      exact absurd trivial awake
    | _ =>
      rw [here] at idle
      exact absurd trivial idle

end Steps

end Monitor

end Yolanda.Foundation
