import Yolanda.App.SharedInvariant
import Yolanda.Foundation.Run

/-! The operations of all threads reach the tables of the loop once each and in the
order in which their calls took the mutex, whatever the interleaving of the steps. -/

namespace Yolanda.App

open Foundation

namespace SharedLoop

variable {loop next : SharedLoop} {remaining : List (ChannelElement Nat)} {thread : Nat}

/-- The loop over the list applies all that is left, one operation a step. -/
theorem drain_walk {cursor : Option Nat} {registry : Registry} (invariant : loop.Invariant remaining)
    (here : loop.places loop.owner = .walking cursor)
    (success : loop.registry.handleAll remaining = .ok registry) :
    ∃ last, run threadStep loop (List.replicate remaining.length (.advance loop.owner)) = .ok last ∧
      last.Invariant [] ∧ last.places last.owner = .walking none ∧ last.owner = loop.owner ∧
      last.asked = loop.asked ∧ last.registry = registry := by
  induction remaining generalizing loop cursor with
  | nil =>
    cases success
    cases cursor with
    | none => exact ⟨loop, rfl, invariant, here, rfl, rfl, rfl⟩
    | some address =>
      obtain ⟨node, rest, addresses, _, split, _⟩ := invariant.cursor here
      cases split
  | cons element elements ih =>
    cases cursor with
    | none =>
      have empty := (invariant.finish here).1
      cases empty
    | some address =>
      obtain ⟨node, rest, addresses, place, split, _⟩ := invariant.cursor here
      cases split
      obtain ⟨middle, handled, others⟩ := bind_eq_ok.mp success
      obtain ⟨after, same, kept⟩ := invariant.apply here place handled
      cases same
      have moved : threadStep loop (.advance loop.owner) =
          .ok ({ loop with registry := middle }.move loop.owner (.walking node.next)) := by
        simp only [threadStep, SharedLoop.advance, here, place, handled]
        rfl
      obtain ⟨last, walked, final⟩ := ih kept (Function.update_self ..) others
      exact ⟨last, (run_cons moved _).trans walked, final⟩

private theorem advance_handling (here : loop.places thread = .handling) (free : loop.mutex = none) :
    loop.advance thread = .ok
      ({ loop with mutex := some thread, woken := false }.move thread .begun) := by
  simp only [advance, here, free]

private theorem advance_begun (here : loop.places thread = .begun) :
    loop.advance thread = .ok
      ({ loop with isHandlePending := true }.move thread (.walking loop.pending.head)) := by
  simp only [advance, here]

private theorem advance_finished (here : loop.places thread = .walking none) :
    loop.advance thread = .ok
      ({ loop with isHandlePending := false, pending := loop.pending.reset }.move
        thread .walked) := by
  simp only [advance, here]

private theorem advance_walked (here : loop.places thread = .walked) :
    loop.advance thread = .ok ({ loop with mutex := none }.move thread .outside) := by
  simp only [advance, here]

/-- The owner takes the mutex, raises the flag and stands at the head of the list. -/
theorem drain_begins (invariant : loop.Invariant remaining)
    (here : loop.places loop.owner = .handling) (free : loop.mutex = none) :
    ∃ next cursor, run threadStep loop (List.replicate 2 (.advance loop.owner)) = .ok next ∧
      next.Invariant remaining ∧ next.places next.owner = .walking cursor ∧
      next.owner = loop.owner ∧ next.asked = loop.asked ∧ next.registry = loop.registry := by
  have begun := invariant.begin free here
  have first := advance_handling here free
  have place := places_move { loop with mutex := some loop.owner, woken := false }
    loop.owner .begun
  exact ⟨_, _, (run_cons first _).trans (run_cons (advance_begun place) []), begun.walk place,
    places_move .., rfl, rfl, rfl⟩

/-- At the end of the list the owner resets the pointers and releases the mutex. -/
theorem drain_ends (invariant : loop.Invariant [])
    (here : loop.places loop.owner = .walking none) :
    ∃ last, run threadStep loop (List.replicate 2 (.advance loop.owner)) = .ok last ∧
      last.Invariant [] ∧ last.mutex = none ∧ last.places last.owner = .outside ∧
      last.asked = loop.asked ∧ last.registry = loop.registry := by
  have walked := (invariant.finish here).2
  have first := advance_finished here
  have place := places_move
    { loop with isHandlePending := false, pending := loop.pending.reset } loop.owner .walked
  exact ⟨_, (run_cons first _).trans (run_cons (advance_walked place) []), walked.leave place,
    rfl, places_move .., rfl, rfl⟩

/-- A drain that no `epoll_ctl` stops applies every operation asked for. -/
theorem drain_completes {registry : Registry} (invariant : loop.Invariant remaining)
    (here : loop.places loop.owner = .handling) (free : loop.mutex = none)
    (success : loop.registry.handleAll remaining = .ok registry) :
    ∃ last, run threadStep loop
        (List.replicate (remaining.length + 4) (.advance loop.owner)) = .ok last ∧
      last.applied = loop.asked ∧ last.pending.Describes [] ∧ last.registry = registry := by
  have parts : List.replicate (remaining.length + 4) (ThreadEvent.advance loop.owner) =
      List.replicate 2 (.advance loop.owner) ++
        (List.replicate remaining.length (.advance loop.owner) ++
          List.replicate 2 (.advance loop.owner)) := by
    have count : remaining.length + 4 = 2 + (remaining.length + 2) := by omega
    rw [count, List.replicate_add, List.replicate_add]
  obtain ⟨begun, cursor, first, kept, place, owner, asked, same⟩ :=
    drain_begins invariant here free
  rw [← same] at success
  obtain ⟨walked, second, done, finish, owner', asked', same'⟩ := drain_walk kept place success
  rw [owner] at second owner'
  obtain ⟨last, third, final, released, outside, asked'', same''⟩ := drain_ends done finish
  rw [owner'] at third
  refine ⟨last, ?_, ?_, ?_, same''.trans same'⟩
  · rw [parts]
    exact run_append.mpr ⟨begun, first, run_append.mpr ⟨walked, second, third⟩⟩
  · have order := final.ordered
    unfold held at order
    rw [released, List.append_nil, List.append_nil] at order
    exact order.symm.trans (asked''.trans (asked'.trans asked))
  · exact final.pointed.describes (by rw [outside]; rfl)

end SharedLoop

/-- What `pending_head` and `pending_tail` tell of the operations not yet applied. -/
structure SharedLoop.Listed (loop : SharedLoop) (remaining : List (ChannelElement Nat)) :
    Prop where
  describes : loop.pending.Describes remaining
  head : loop.pending.head = none ↔ remaining = []
  tail : loop.pending.tail = none ↔ remaining = []
  last : ∀ element, remaining.getLast? = some element → ∃ address,
    loop.pending.tail = some address ∧
      loop.pending.heap[address]? = some { value := element, next := none }

/-- Whatever the interleaving, only `epoll_ctl` can stop the threads, so neither assertion
fails. In every state reached the operations asked for, in the order in which their calls
took the mutex, are those applied, then those that remain, then the one whose call has the
mutex. The pointers list those that remain, except in the drain, which finds them behind
its cursor. While some remain, a drain is under way or will be, and a drain applies all of
them. -/
theorem operations_applied_in_order (owner : Nat) (opened : Int → Bool)
    (events : List ThreadEvent) :
    (∀ stop, run threadStep (.start owner opened) events = .error stop → stop = .epollCtl) ∧
    ∀ final, run threadStep (.start owner opened) events = .ok final →
      ∃ remaining, final.asked = final.applied ++ remaining ++ final.held ∧
        final.Pointed remaining ∧
        ((final.places final.owner).drains = false → final.Listed remaining) ∧
        (remaining ≠ [] → final.WillHandle) ∧
        ∀ registry, final.places final.owner = .handling → final.mutex = none →
          final.registry.handleAll remaining = .ok registry →
          ∃ last, run threadStep final
              (List.replicate (remaining.length + 4) (.advance final.owner)) = .ok last ∧
            last.applied = final.asked ∧ last.pending.Describes [] ∧
            last.registry = registry := by
  have begin : ∃ remaining, (SharedLoop.start owner opened).Invariant remaining :=
    ⟨[], SharedLoop.start_invariant owner opened⟩
  have preserve : ∀ loop event next, (∃ remaining, SharedLoop.Invariant loop remaining) →
      threadStep loop event = .ok next → ∃ remaining, next.Invariant remaining := by
    intro loop event next ⟨remaining, invariant⟩ taken
    rcases SharedLoop.threadStep_invariant invariant event with
      ⟨other, rest, same, kept⟩ | failed
    · cases taken.symm.trans same
      exact ⟨rest, kept⟩
    · cases taken.symm.trans failed
  constructor
  · intro stop failure
    apply run_stops _ preserve _ begin failure
    intro loop event fault ⟨remaining, invariant⟩ failed
    rcases SharedLoop.threadStep_invariant invariant event with
      ⟨other, rest, same, kept⟩ | stopped
    · cases failed.symm.trans same
    · cases failed.symm.trans stopped
      rfl
  · intro final success
    have always : Along threadStep (fun _ _ => True) (.start owner opened) events :=
      Along.of_forall (fun _ _ _ => trivial) _
    obtain ⟨remaining, invariant⟩ := run_invariant _
      (fun loop event next held _ taken => preserve loop event next held taken) begin always success
    refine ⟨remaining, invariant.ordered, invariant.pointed, ?_, invariant.heard, ?_⟩
    · intro calm
      have describes := invariant.pointed.describes calm
      exact ⟨describes, describes.head_eq_none, describes.tail_eq_none,
        fun _ ends => describes.tail_last ends⟩
    · intro registry here free handled
      exact SharedLoop.drain_completes invariant here free handled

end Yolanda.App
