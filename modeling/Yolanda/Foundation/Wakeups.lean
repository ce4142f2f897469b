import Yolanda.Foundation.Monitor
import Mathlib.Algebra.BigOperators.Group.Finset.Basic

/-! Condition variables with one signal for each thing that sleepers wait for: while a thread
sleeps, there are never more of them than threads that come for one. -/

namespace Yolanda.Foundation

universe u v w x y z
variable {Thread : Type u} {Call : Type v} {Statement : Type w} {Frame : Type x} {Data : Type y}
  {Stop : Type z}

/-- One for a thread that comes for a ticket or is about to signal. -/
def Point.coming (waits : Call → Bool) : Point Call Statement Frame → Nat
  | .entering call | .testing call | .inside call _ _ => if waits call then 1 else 0
  | .signalling _ _ => 1
  | .outside | .asleep _ | .leaving _ _ => 0

/-- An upper bound for the steps a thread takes before it sleeps or is outside, and three for a
signal, which makes another thread take two more. -/
def Point.rank (protocol : Protocol Call Statement Frame Data Stop) :
    Point Call Statement Frame → Nat
  | .outside => 0
  | .leaving _ _ => 1
  | .signalling _ _ => 4
  | .inside _ rest _ => 5 + rest.length
  | .asleep call => 6 + (protocol.statements call).length
  | .testing call => 7 + (protocol.statements call).length
  | .entering call => 8 + (protocol.statements call).length

namespace Protocol

/-- A call that waits takes a ticket, and waits as long as there is none; another call gives one
at most, and signals when it does. -/
structure Tickets (protocol : Protocol Call Statement Frame Data Stop) (valid : Data → Prop)
    (tickets : Data → Nat) (waits : Call → Bool) : Prop where
  waiting : ∀ data call, valid data → waits call = true →
    (protocol.ready data call = true ↔ 0 < tickets data)
  passing : ∀ data call, waits call = false → protocol.ready data call = true
  taken : ∀ data call after frame, valid data → waits call = true →
    protocol.ready data call = true → protocol.whole data call = .ok (after, frame) →
    tickets after < tickets data
  given : ∀ data call after frame, valid data → waits call = false →
    protocol.whole data call = .ok (after, frame) →
    tickets after ≤ tickets data + if protocol.signals call then 1 else 0
  kept : ∀ data call after frame, valid data → protocol.ready data call = true →
    protocol.whole data call = .ok (after, frame) → valid after

end Protocol

namespace Monitor

variable [DecidableEq Thread] [Fintype Thread]
  {protocol : Protocol Call Statement Frame Data Stop}
  {monitor next : Monitor Thread Call Statement Frame Data} {thread : Thread} {start : Data}
  {point : Point Call Statement Frame}

/-- What the threads at their places add up to. -/
def total (weight : Point Call Statement Frame → Nat)
    (monitor : Monitor Thread Call Statement Frame Data) : Nat :=
  Finset.univ.sum fun thread => weight (monitor.points thread)

/-- A thread that goes elsewhere takes its part along. -/
theorem total_update (weight : Point Call Statement Frame → Nat)
    (points : next.points = Function.update monitor.points thread point) :
    next.total weight + weight (monitor.points thread) = monitor.total weight + weight point := by
  have after : next.total weight =
      weight point + (Finset.univ.erase thread).sum fun other => weight (monitor.points other) := by
    rw [total, ← Finset.add_sum_erase _ _ (Finset.mem_univ thread), points, Function.update_self]
    congr 1
    refine Finset.sum_congr rfl fun other member => ?_
    rw [Function.update_of_ne (Finset.ne_of_mem_erase member)]
  have before := Finset.add_sum_erase Finset.univ
    (fun other => weight (monitor.points other)) (Finset.mem_univ thread)
  rw [after, total, ← before]
  omega

/-- Every sleeper waits for a ticket, and there are no more tickets than threads that come for
one or are about to signal, as long as somebody sleeps. -/
structure Alert (protocol : Protocol Call Statement Frame Data Stop) (valid : Data → Prop)
    (tickets : Data → Nat) (waits : Call → Bool)
    (monitor : Monitor Thread Call Statement Frame Data) : Prop where
  valid : valid monitor.settled
  waiters : ∀ thread call, monitor.points thread = .asleep call → waits call = true
  enough : monitor.sleepers = [] ∨
    tickets monitor.settled ≤ monitor.total (Point.coming waits)

variable {valid : Data → Prop} {tickets : Data → Nat} {waits : Call → Bool}

/-- The sleepers are among those there were when a thread goes to another place. -/
theorem Alert.waiters_update (alert : monitor.Alert protocol valid tickets waits)
    (points : next.points = Function.update monitor.points thread point)
    (rests : ∀ call, point = .asleep call → waits call = true) :
    ∀ other call, next.points other = .asleep call → waits call = true := by
  intro other call asleep
  by_cases same : other = thread
  · rw [same, points, Function.update_self] at asleep
    exact rests call asleep
  · rw [points, Function.update_of_ne same] at asleep
    exact alert.waiters other call asleep

theorem Alert.wake (alert : monitor.Alert protocol valid tickets waits)
    (sound : monitor.Sound protocol start) {chosen : Thread} (member : chosen ∈ monitor.sleepers) :
    (monitor.wake chosen).Alert protocol valid tickets waits ∧
      (monitor.wake chosen).total (Point.coming waits) =
        monitor.total (Point.coming waits) + 1 := by
  have sleeping := (sound.sleeps chosen).mpr member
  cases here : monitor.points chosen with
  | asleep call =>
    have woken : monitor.wake chosen = { monitor.move chosen (.entering call) with
        sleepers := monitor.sleepers.erase chosen } := by
      simp only [Monitor.wake, here]
    have waiting := alert.waiters chosen call here
    have points : (monitor.wake chosen).points =
        Function.update monitor.points chosen (.entering call) := by
      rw [woken]
      rfl
    have moved := total_update (Point.coming waits) points
    rw [here] at moved
    simp only [Point.coming, waiting, if_true] at moved
    refine ⟨⟨?_, ?_, ?_⟩, moved⟩
    · rw [woken]
      exact alert.valid
    · refine alert.waiters_update points ?_
      intro call asleep
      cases asleep
    · rcases alert.enough with none | enough
      · rw [none] at member
        cases member
      · right
        have same : (monitor.wake chosen).settled = monitor.settled := by
          rw [woken]
          rfl
        rw [same]
        omega
  | _ =>
    rw [here] at sleeping
    exact sleeping.elim

/-- A thread that counts as much where it goes as it does here. -/
theorem Alert.relocate (alert : monitor.Alert protocol valid tickets waits)
    (points : next.points = Function.update monitor.points thread point)
    (up : ¬ point.Sleeping) (settled : next.settled = monitor.settled)
    (sleepers : next.sleepers = monitor.sleepers)
    (counts : (monitor.points thread).coming waits ≤ point.coming waits) :
    next.Alert protocol valid tickets waits := by
  have moved := total_update (Point.coming waits) points
  refine ⟨settled ▸ alert.valid, alert.waiters_update points ?_, ?_⟩
  · intro call asleep
    rw [asleep] at up
    exact absurd trivial up
  · rw [settled, sleepers]
    rcases alert.enough with none | enough
    · exact .inl none
    · right
      omega

omit [DecidableEq Thread] [Fintype Thread] in
theorem coming_behind (waits : Call → Bool) (call : Call) (frame : Frame) :
    (Point.behind protocol call frame).coming waits = if protocol.signals call then 1 else 0 := by
  unfold Point.behind
  split <;> rfl

/-- A thread that has run its statements has taken a ticket, or goes on to signal. -/
theorem Alert.commit {call : Call} {frame : Frame}
    (alert : monitor.Alert protocol valid tickets waits)
    (rules : protocol.Tickets valid tickets waits)
    (here : monitor.points thread = .inside call [] frame)
    (ready : protocol.ready monitor.settled call = true)
    (made : protocol.whole monitor.settled call = .ok (monitor.data, frame))
    (points : next.points =
      Function.update monitor.points thread (Point.behind protocol call frame))
    (settled : next.settled = monitor.data) (sleepers : next.sleepers = monitor.sleepers) :
    next.Alert protocol valid tickets waits := by
  have moved := total_update (Point.coming waits) points
  rw [here, coming_behind] at moved
  refine ⟨?_, alert.waiters_update points ?_, ?_⟩
  · rw [settled]
    exact rules.kept _ call _ frame alert.valid ready made
  · intro other asleep
    unfold Point.behind at asleep
    split at asleep <;> cases asleep
  · rw [settled, sleepers]
    rcases alert.enough with none | enough
    · exact .inl none
    · right
      cases waiting : waits call with
      | true =>
        have less := rules.taken _ call _ frame alert.valid waiting ready made
        simp only [Point.coming, waiting, if_true] at moved
        omega
      | false =>
        have more := rules.given _ call _ frame alert.valid waiting made
        simp only [Point.coming, waiting, Bool.false_eq_true, if_false] at moved
        omega

theorem Alert.progress (alert : monitor.Alert protocol valid tickets waits)
    (rules : protocol.Tickets valid tickets waits) (sound : monitor.Sound protocol start)
    (progress : monitor.Progress protocol thread next) :
    next.Alert protocol valid tickets waits := by
  cases progress with
  | locks here free => exact alert.relocate rfl id rfl rfl (by rw [here]; exact Nat.le_refl _)
  | passes here ready => exact alert.relocate rfl id rfl rfl (by rw [here]; exact Nat.le_refl _)
  | @waits call here unready =>
    have settled := sound.settled_eq (by rw [here]; simp) (by rw [here]; trivial)
    rw [settled] at unready
    have waiting : waits call = true := by
      by_contra passing
      have ready := rules.passing monitor.settled call (Bool.not_eq_true _ ▸ passing)
      rw [ready] at unready
      cases unready
    have nothing : ¬ 0 < tickets monitor.settled := by
      intro some
      rw [(rules.waiting _ call alert.valid waiting).mpr some] at unready
      cases unready
    refine ⟨alert.valid, alert.waiters_update (move_points monitor thread (.asleep call)) ?_,
      .inr ?_⟩
    · intro other asleep
      cases asleep
      exact waiting
    · change tickets monitor.settled ≤ _
      omega
  | executes here executed => exact alert.relocate rfl id rfl rfl (by rw [here]; exact Nat.le_refl _)
  | @commits call frame here =>
    have agrees := sound.agrees
    rw [sound.active_eq (by rw [here]; trivial), here] at agrees
    exact alert.commit rules here agrees.1 agrees.2.symm rfl rfl rfl
  | signals here nobody =>
    refine ⟨alert.valid, alert.waiters_update (move_points monitor thread _) ?_, .inl nobody⟩
    intro call asleep
    cases asleep
  | @wakes call frame chosen here member =>
    have apart : thread ≠ chosen := by
      intro same
      have sleeping := (sound.sleeps chosen).mpr member
      rw [← same, here] at sleeping
      exact sleeping
    obtain ⟨woken, more⟩ := alert.wake sound member
    have points := move_points (monitor.wake chosen) thread (.leaving call frame)
    have moved := total_update (Point.coming waits) points
    rw [wake_points_of_ne _ apart, here] at moved
    have settled : (monitor.wake chosen).settled = monitor.settled := by
      unfold Monitor.wake
      split <;> rfl
    refine ⟨woken.valid, woken.waiters_update points ?_, ?_⟩
    · intro other asleep
      cases asleep
    · change (monitor.wake chosen).sleepers = [] ∨ tickets (monitor.wake chosen).settled ≤ _
      rcases alert.enough with none | enough
      · rw [none] at member
        cases member
      · right
        rw [settled]
        change _ + 1 = _ + 0 at moved
        omega
  | leaves here => exact alert.relocate rfl id rfl rfl (by rw [here]; exact Nat.le_refl _)

theorem Alert.step {event : MonitorEvent Thread Call}
    (alert : monitor.Alert protocol valid tickets waits)
    (rules : protocol.Tickets valid tickets waits) (sound : monitor.Sound protocol start)
    (taken : monitorStep protocol monitor event = .ok next) :
    next.Alert protocol valid tickets waits := by
  cases event with
  | call thread call =>
    cases here : monitor.points thread with
    | outside =>
      simp only [monitorStep, here, Except.ok.injEq] at taken
      subst taken
      exact alert.relocate (move_points monitor thread (.entering call)) id rfl rfl
        (by rw [here]; exact Nat.zero_le _)
    | _ =>
      simp only [monitorStep, here, Except.ok.injEq] at taken
      exact taken ▸ alert
  | advance thread chosen =>
    rcases advance_cases taken with same | progress
    · exact same ▸ alert
    · exact alert.progress rules sound progress
  | spurious thread =>
    simp only [monitorStep, Except.ok.injEq] at taken
    subst taken
    by_cases member : thread ∈ monitor.sleepers
    · exact (alert.wake sound member).1
    · have same : monitor.wake thread = monitor := by
        cases here : monitor.points thread with
        | asleep call =>
          have sleeping := (sound.sleeps thread).mp (by rw [here]; trivial)
          exact absurd sleeping member
        | _ => simp only [Monitor.wake, here]
      exact same.symm ▸ alert

theorem wake_rank (monitor : Monitor Thread Call Statement Frame Data) (chosen : Thread) :
    (monitor.wake chosen).total (Point.rank protocol) ≤
      monitor.total (Point.rank protocol) + 2 := by
  cases here : monitor.points chosen with
  | asleep call =>
    have points : (monitor.wake chosen).points =
        Function.update monitor.points chosen (.entering call) := by
      simp only [Monitor.wake, here]
      rfl
    have moved := total_update (Point.rank protocol) points
    rw [here] at moved
    simp only [Point.rank] at moved
    omega
  | _ =>
    simp only [Monitor.wake, here]
    omega

/-- A thread that goes elsewhere uses up what the rank of its place is more. -/
theorem rank_lt (points : next.points = Function.update monitor.points thread point)
    (less : point.rank protocol < (monitor.points thread).rank protocol) :
    next.total (Point.rank protocol) < monitor.total (Point.rank protocol) := by
  have moved := total_update (Point.rank protocol) points
  omega

/-- Threads that go on come to an end, if no sleeper wakes by itself and no call is begun. -/
theorem Progress.rank (progress : monitor.Progress protocol thread next)
    (sound : monitor.Sound protocol start) :
    next.total (Point.rank protocol) < monitor.total (Point.rank protocol) := by
  cases progress with
  | locks here free => exact rank_lt rfl (by rw [here]; simp only [Point.rank]; omega)
  | passes here ready => exact rank_lt rfl (by rw [here]; simp only [Point.rank]; omega)
  | waits here unready => exact rank_lt rfl (by rw [here]; simp only [Point.rank]; omega)
  | executes here executed =>
    exact rank_lt rfl (by rw [here]; simp only [Point.rank, List.length_cons]; omega)
  | commits here =>
    refine rank_lt rfl ?_
    rw [here]
    unfold Point.behind
    split
    · simp only [Point.rank, List.length_nil]
      omega
    · simp only [Point.rank, List.length_nil]
      omega
  | signals here nobody => exact rank_lt rfl (by rw [here]; simp only [Point.rank]; omega)
  | @wakes call frame chosen here member =>
    have apart : thread ≠ chosen := by
      intro same
      have sleeping := (sound.sleeps chosen).mpr member
      rw [← same, here] at sleeping
      exact sleeping
    have woken := @wake_rank _ _ _ _ _ _ _ _ protocol monitor chosen
    have moved := total_update (Point.rank protocol)
      (move_points (monitor.wake chosen) thread (.leaving call frame))
    rw [wake_points_of_ne _ apart, here] at moved
    simp only [Point.rank] at moved
    omega
  | leaves here => exact rank_lt rfl (by rw [here]; simp only [Point.rank]; omega)

/-- No thread can go on. -/
def AtRest (protocol : Protocol Call Statement Frame Data Stop)
    (monitor : Monitor Thread Call Statement Frame Data) : Prop :=
  ∀ thread chosen, monitor.advance protocol thread chosen = .ok monitor

end Monitor

end Yolanda.Foundation
