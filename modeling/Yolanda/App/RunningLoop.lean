import Yolanda.App.SharedInvariant
import Yolanda.Foundation.Run

/-! The thread of a loop in `run`, between `dispatch` and `handle_pending_channel`, among the
threads that call the loop. -/

namespace Yolanda.App

open Foundation

/-- Where the thread of the loop stands when it is not inside one of the loop's calls. -/
inductive Stage where
  /-- Before `run`, from the constructor's body on. -/
  | built
  /-- In `epoll_wait`, or on the way to it. -/
  | waiting
  /-- In `dispatch`, behind `epoll_wait`. -/
  | dispatching
  /-- In the call of `handle_pending_channel` in `run`. -/
  | draining
  deriving DecidableEq, Repr

structure RunningLoop extends SharedLoop where
  stage : Stage

inductive RunEvent where
  /-- `run` comes to its first `dispatch`. -/
  | enter
  /-- `epoll_wait` returns, with events or without. -/
  | awake
  /-- `dispatch` returns. -/
  | handle
  /-- `handle_pending_channel` returns, and `run` goes back to `dispatch`. -/
  | again
  /-- A thread takes a step, or something else happens to channels and descriptors. -/
  | thread (event : ThreadEvent)

namespace RunningLoop

def start (owner : Nat) (opened : Int → Bool) : RunningLoop :=
  { SharedLoop.start owner opened with
    stage := .built }

/-- The steps that are possible at a stage: before `run` and in its callbacks the thread of
the loop may call the loop, and only a callback reads a byte. -/
def permits (loop : RunningLoop) : ThreadEvent → Bool
  | .call thread _ => thread ≠ loop.owner || loop.stage = .built || loop.stage = .dispatching
  | .handle => false
  | .wake => loop.stage = .dispatching
  | _ => true

/-- The thread of the loop is blocked in `dispatch`, or comes to it next. -/
def Asleep (loop : RunningLoop) : Prop :=
  (loop.stage = .built ∨ loop.stage = .waiting) ∧ loop.places loop.owner = .outside

/-- A thread that has appended an operation and not woken the loop up yet. -/
def Waking (loop : RunningLoop) : Prop :=
  ∃ thread, thread ≠ loop.owner ∧
    (loop.places thread = .appended ∨ loop.places thread = .unlocked)

end RunningLoop

/-- A step that cannot be taken changes nothing. -/
def runStep (loop : RunningLoop) : RunEvent → Except Fault RunningLoop
  | .enter =>
    if loop.stage = .built ∧ loop.places loop.owner = .outside then
      .ok { loop with stage := .waiting }
    else .ok loop
  | .awake =>
    if loop.stage = .waiting then .ok { loop with stage := .dispatching } else .ok loop
  | .handle =>
    if loop.stage = .dispatching ∧ loop.places loop.owner = .outside then do
      let handling ← threadStep loop.toSharedLoop .handle
      return { handling with
        stage := .draining }
    else .ok loop
  | .again =>
    if loop.stage = .draining ∧ loop.places loop.owner = .outside then
      .ok { loop with stage := .waiting }
    else .ok loop
  | .thread event =>
    if loop.permits event then do
      let next ← threadStep loop.toSharedLoop event
      return { next with
        stage := loop.stage }
    else .ok loop

namespace SharedLoop

variable {loop next : SharedLoop} {thread : Nat}

/-- What a step of one thread leaves alone: the loop's thread, the other threads, and the
byte read, unless it is at the head of `handle_pending_channel`. -/
structure Advanced (loop next : SharedLoop) (thread : Nat) : Prop where
  owner : next.owner = loop.owner
  others : ∀ other, other ≠ thread → next.places other = loop.places other
  woken : loop.woken = false → next.woken = false
  outside : loop.places thread = .outside → next = loop
  handling : loop.places thread = .handling → next = loop ∨ next.woken = false

private theorem Advanced.unchanged (loop : SharedLoop) (thread : Nat) :
    loop.Advanced loop thread :=
  ⟨rfl, fun _ _ => rfl, fun same => same, fun _ => rfl, fun _ => .inl rfl⟩

/-- A thread that moves on in its call. -/
private theorem Advanced.moved {place : Place} (owner : next.owner = loop.owner)
    (places : next.places = Function.update loop.places thread place)
    (woken : next.woken = loop.woken) (inside : loop.places thread ≠ .outside)
    (beyond : loop.places thread ≠ .handling) : loop.Advanced next thread := by
  refine ⟨owner, ?_, ?_, fun here => absurd here inside, fun here => absurd here beyond⟩
  · intro other apart
    rw [places, Function.update_of_ne apart]
  · intro unread
    rw [woken, unread]

theorem advance_advanced (success : loop.advance thread = .ok next) :
    loop.Advanced next thread := by
  cases here : loop.places thread with
  | outside =>
    simp only [advance, here] at success
    cases success
    exact .unchanged loop thread
  | entering operation =>
    cases free : loop.mutex with
    | some holder =>
      simp only [advance, here, free] at success
      cases success
      exact .unchanged loop thread
    | none =>
      simp only [advance, here, free] at success
      cases success
      exact .moved rfl rfl rfl (by simp [here]) (by simp [here])
  | locked operation =>
    simp only [advance, here] at success
    split at success
    · cases success
    · cases success
      exact .moved rfl rfl rfl (by simp [here]) (by simp [here])
  | asserted operation =>
    simp only [advance, here] at success
    split at success
    · cases success
    · cases success
      exact .moved rfl rfl rfl (by simp [here]) (by simp [here])
  | unlocked =>
    simp only [advance, here] at success
    split at success
    · cases success
      exact .moved rfl rfl rfl (by simp [here]) (by simp [here])
    · cases success
      exact .moved rfl rfl rfl (by simp [here]) (by simp [here])
  | handling =>
    cases free : loop.mutex with
    | some holder =>
      simp only [advance, here, free] at success
      cases success
      exact .unchanged loop thread
    | none =>
      simp only [advance, here, free] at success
      cases success
      refine ⟨rfl, ?_, fun _ => rfl, by simp [here], fun _ => .inr rfl⟩
      intro other apart
      exact Function.update_of_ne apart ..
  | walking cursor =>
    cases cursor with
    | none =>
      simp only [advance, here] at success
      cases success
      exact .moved rfl rfl rfl (by simp [here]) (by simp [here])
    | some address =>
      simp only [advance, here] at success
      split at success
      · cases success
      · obtain ⟨registry, _, same⟩ := bind_eq_ok.mp success
        cases same
        exact .moved rfl rfl rfl (by simp [here]) (by simp [here])
  | appended | begun | walked =>
    simp only [advance, here] at success
    cases success
    exact .moved rfl rfl rfl (by simp [here]) (by simp [here])

end SharedLoop

namespace RunningLoop

variable {loop next : RunningLoop}

/-- The loop goes to sleep with no byte read that it has not answered by a drain. -/
structure Answered (loop : RunningLoop) : Prop where
  built : loop.stage = .built → loop.woken = false
  waiting : loop.stage = .waiting → loop.woken = false ∧ loop.places loop.owner = .outside
  draining : loop.stage = .draining →
    loop.woken = false ∨ loop.places loop.owner = .handling

theorem start_answered (owner : Nat) (opened : Int → Bool) : (start owner opened).Answered :=
  ⟨fun _ => rfl, nofun, nofun⟩

/-- A step that reads no byte and takes the owner nowhere it does not stand already. -/
private theorem Answered.of_quiet {shared : SharedLoop} (answered : loop.Answered)
    (owner : shared.owner = loop.owner) (woken : loop.woken = false → shared.woken = false)
    (place : loop.stage = .waiting ∨ loop.stage = .draining → shared.woken = true →
      shared.places loop.owner = loop.places loop.owner)
    (outside : loop.stage = .waiting → shared.places loop.owner = loop.places loop.owner) :
    Answered { shared with
      stage := loop.stage } := by
  constructor
  · intro stage
    exact woken (answered.built stage)
  · intro stage
    obtain ⟨unread, stays⟩ := answered.waiting stage
    refine ⟨woken unread, ?_⟩
    change shared.places shared.owner = .outside
    rw [owner, outside stage, stays]
  · intro stage
    rcases answered.draining stage with unread | stands
    · exact .inl (woken unread)
    · change shared.woken = false ∨ shared.places shared.owner = .handling
      cases read : shared.woken with
      | false => exact .inl rfl
      | true =>
        right
        rw [owner, place (.inr stage) read, stands]

private theorem Answered.advance {shared : SharedLoop} {thread : Nat} (answered : loop.Answered)
    (success : loop.toSharedLoop.advance thread = .ok shared) :
    Answered { shared with
      stage := loop.stage } := by
  have advanced := SharedLoop.advance_advanced success
  by_cases mine : thread = loop.owner
  · subst thread
    refine answered.of_quiet advanced.owner advanced.woken ?_ ?_
    · intro stage read
      rcases stage with waiting | draining
      · rw [advanced.outside (answered.waiting waiting).2]
      · rcases answered.draining draining with unread | stands
        · rw [advanced.woken unread] at read
          cases read
        · rcases advanced.handling stands with same | unread
          · rw [same]
          · rw [unread] at read
            cases read
    · intro waiting
      rw [advanced.outside (answered.waiting waiting).2]
  · have stays := advanced.others loop.owner (Ne.symm mine)
    exact answered.of_quiet advanced.owner advanced.woken (fun _ _ => stays) fun _ => stays

private theorem Answered.thread {event : ThreadEvent} {shared : SharedLoop}
    (answered : loop.Answered) (permitted : loop.permits event = true)
    (success : threadStep loop.toSharedLoop event = .ok shared) :
    Answered { shared with
      stage := loop.stage } := by
  cases event with
  | advance thread => exact answered.advance success
  | handle => cases permitted
  | wake =>
    have stage : loop.stage = .dispatching := by simpa [permits] using permitted
    constructor
    · intro built
      cases stage.symm.trans built
    · intro waiting
      cases stage.symm.trans waiting
    · intro draining
      cases stage.symm.trans draining
  | call thread operation =>
    simp only [threadStep] at success
    split at success
    · cases success
      have apart : loop.stage = .waiting ∨ loop.stage = .draining → loop.owner ≠ thread := by
        intro stage same
        subst thread
        rcases stage with waiting | draining
        · simp [permits, waiting] at permitted
        · simp [permits, draining] at permitted
      refine answered.of_quiet rfl (fun unread => unread) ?_ ?_
      · intro stage _
        exact Function.update_of_ne (apart stage) ..
      · intro waiting
        exact Function.update_of_ne (apart (.inl waiting)) ..
    · cases success
      exact answered.of_quiet rfl (fun unread => unread) (fun _ _ => rfl) fun _ => rfl
  | build channel | retune channel events | kernel kernel =>
    simp only [threadStep] at success
    cases success
    exact answered.of_quiet rfl (fun unread => unread) (fun _ _ => rfl) fun _ => rfl

/-- One step keeps what holds between the threads, and what a sleeping loop has answered. -/
theorem runStep_invariant {event : RunEvent} {remaining : List (ChannelElement Nat)}
    (invariant : loop.toSharedLoop.Invariant remaining) (answered : loop.Answered)
    (success : runStep loop event = .ok next) :
    (∃ rest, next.toSharedLoop.Invariant rest) ∧ next.Answered := by
  have threads : ∀ event shared, threadStep loop.toSharedLoop event = .ok shared →
      ∃ rest, shared.Invariant rest := by
    intro event shared taken
    rcases SharedLoop.threadStep_invariant invariant event with ⟨other, rest, same, kept⟩ | failed
    · cases taken.symm.trans same
      exact ⟨rest, kept⟩
    · cases taken.symm.trans failed
  cases event with
  | enter =>
    simp only [runStep] at success
    split at success
    · rename_i possible
      cases success
      exact ⟨⟨remaining, invariant⟩, nofun,
        fun _ => ⟨answered.built possible.1, possible.2⟩, nofun⟩
    · cases success
      exact ⟨⟨remaining, invariant⟩, answered⟩
  | awake =>
    simp only [runStep] at success
    split at success
    · cases success
      exact ⟨⟨remaining, invariant⟩, nofun, nofun, nofun⟩
    · cases success
      exact ⟨⟨remaining, invariant⟩, answered⟩
  | handle =>
    simp only [runStep] at success
    split at success
    · rename_i possible
      obtain ⟨shared, taken, same⟩ := bind_eq_ok.mp success
      cases same
      refine ⟨threads _ _ taken, nofun, nofun, fun _ => .inr ?_⟩
      simp only [threadStep, possible.2, ↓reduceIte] at taken
      cases taken
      exact Function.update_self ..
    · cases success
      exact ⟨⟨remaining, invariant⟩, answered⟩
  | again =>
    simp only [runStep] at success
    split at success
    · rename_i possible
      cases success
      refine ⟨⟨remaining, invariant⟩, nofun, fun _ => ⟨?_, possible.2⟩, nofun⟩
      rcases answered.draining possible.1 with unread | stands
      · exact unread
      · cases possible.2.symm.trans stands
    · cases success
      exact ⟨⟨remaining, invariant⟩, answered⟩
  | thread event =>
    simp only [runStep] at success
    split at success
    · rename_i permitted
      obtain ⟨shared, taken, same⟩ := bind_eq_ok.mp success
      cases same
      exact ⟨threads _ _ taken, answered.thread permitted taken⟩
    · cases success
      exact ⟨⟨remaining, invariant⟩, answered⟩

/-- A sleeping loop that has something to do is about to be woken up. -/
theorem Asleep.heard {remaining : List (ChannelElement Nat)} (asleep : loop.Asleep)
    (invariant : loop.toSharedLoop.Invariant remaining) (answered : loop.Answered)
    (pending : remaining ≠ []) : 0 < loop.wakeups ∨ loop.Waking := by
  obtain ⟨stage, outside⟩ := asleep
  rcases invariant.heard pending with bytes | read | ⟨thread, serves⟩
  · exact .inl bytes
  · have unread : loop.woken = false := by
      rcases stage with built | waiting
      · exact answered.built built
      · exact (answered.waiting waiting).1
    rw [unread] at read
    cases read
  · right
    have apart : thread ≠ loop.owner := by
      intro mine
      rw [mine, outside] at serves
      cases serves
    -- `handle_pending_channel` is called by the owner only.
    have free : (loop.places thread).handles ≠ true := fun handles =>
      apart (invariant.owned thread handles)
    refine ⟨thread, apart, ?_⟩
    cases here : loop.places thread with
    | appended => exact .inl rfl
    | unlocked => exact .inr rfl
    | outside | entering operation | locked operation | asserted operation =>
      rw [here] at serves
      cases serves
    | handling | begun | walking cursor | walked =>
      rw [here] at free
      exact absurd rfl free

end RunningLoop

/-- Whenever the thread of the loop sleeps in `dispatch`, or comes to it next, while the list
is not empty, a byte is in the socketpair or a thread that has appended is about to send
one. -/
theorem wakeup_not_lost (owner : Nat) (opened : Int → Bool) (events : List RunEvent)
    (loop : RunningLoop) (reached : run runStep (.start owner opened) events = .ok loop)
    (asleep : loop.Asleep) (pending : loop.pending.head ≠ none) :
    0 < loop.wakeups ∨ loop.Waking := by
  have always : Along runStep (fun _ _ => True) (.start owner opened) events :=
    Along.of_forall (fun _ _ _ => trivial) _
  have begin : (∃ remaining, (RunningLoop.start owner opened).toSharedLoop.Invariant remaining) ∧
      (RunningLoop.start owner opened).Answered :=
    ⟨⟨[], SharedLoop.start_invariant owner opened⟩, RunningLoop.start_answered owner opened⟩
  obtain ⟨⟨remaining, invariant⟩, answered⟩ := run_invariant
    (fun loop : RunningLoop => (∃ remaining, loop.toSharedLoop.Invariant remaining) ∧
      loop.Answered)
    (fun loop event next holds _ taken => by
      obtain ⟨⟨remaining, invariant⟩, answered⟩ := holds
      exact RunningLoop.runStep_invariant invariant answered taken) begin always reached
  refine asleep.heard invariant answered ?_
  intro empty
  have calm : (loop.places loop.owner).drains = false := by
    rw [asleep.2]
    rfl
  exact pending ((invariant.pointed.describes calm).head_eq_none.mpr empty)

/-- The constructor adds the channel of the socketpair, and another thread asks for an
operation before `run` is entered. -/
def queuedBeforeRun : List RunEvent :=
  [.thread (.build (wakeupChannel 0 4)), .thread (.call 0 (.add 0))] ++
    List.replicate 10 (.thread (.advance 0)) ++
    [.thread (.build (connectionChannel 0 7)), .thread (.call 1 (.add 1))] ++
    List.replicate 4 (.thread (.advance 1)) ++ [.enter]

theorem wakeup_not_lost_sample : ∃ loop,
    run runStep (.start 0 fun _ => true) queuedBeforeRun = .ok loop ∧ loop.stage = .waiting ∧
      loop.pending.head = some 1 ∧ loop.wakeups = 0 ∧ (0 < loop.wakeups ∨ loop.Waking) :=
  ⟨_, rfl, rfl, rfl, rfl,
    wakeup_not_lost 0 (fun _ => true) queuedBeforeRun _ rfl ⟨.inr rfl, rfl⟩ (by decide)⟩

end Yolanda.App
