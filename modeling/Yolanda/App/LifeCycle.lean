import Yolanda.App.Descriptors

/-! The life of a connection between its loop and the application: bytes that are passed on, and
the call that says that it is over. -/

namespace Yolanda.App

open Foundation

/-- The calls between the loop and the application that belong to a watched connection. -/
def Call.attends : Call → Bool
  | .message _ | .handleWrite | .connectionClosed | .unwatched => true
  | _ => false

/-- The connection is still watched, or `connectionClosedCallBack` was called once when the
loop stopped to watch it. Then all bytes that were ready before were passed to
`messageCallBack`, and no handler is called behind. -/
def LifeCycle (trace : List Call) : Prop :=
  (.unwatched ∉ trace ∧ .connectionClosed ∉ trace) ∨
  ∃ before after, trace = before ++ .unwatched :: .connectionClosed :: after ∧
    messageBytes before = arrivedBytes before ∧
    (.unwatched ∉ before ∧ .connectionClosed ∉ before) ∧ ∀ call ∈ after, call.attends = false

/-- Where the watch ends all bytes have been passed on, and `connectionClosedCallBack`
follows. -/
def Concludes (trace : List Call) : Prop :=
  ∀ before after, trace = before ++ .unwatched :: after →
    messageBytes before = arrivedBytes before ∧ .connectionClosed ∈ after

variable {trace calls : List Call}

/-- The watch ends once. -/
theorem unwatched_once (orderly : Orderly Permitted trace) {before after : List Call}
    (shape : trace = before ++ .unwatched :: after) : .unwatched ∉ before ∧ .unwatched ∉ after := by
  refine ⟨orderly.allowed_of shape, ?_⟩
  intro again
  obtain ⟨between, rest, inner⟩ := List.append_of_mem again
  have place : trace = (before ++ .unwatched :: between) ++ .unwatched :: rest := by
    rw [shape, inner, List.append_assoc, List.cons_append]
  exact orderly.allowed_of place (by simp)

/-- `connectionClosedCallBack` is called where the watch has just ended. -/
theorem closed_follows (orderly : Orderly Permitted trace) {before between rest : List Call}
    (shape : trace = before ++ .unwatched :: (between ++ .connectionClosed :: rest)) :
    between = [] := by
  have late := (unwatched_once orderly shape).2
  have place : trace = (before ++ .unwatched :: between) ++ .connectionClosed :: rest := by
    rw [shape, List.append_assoc, List.cons_append]
  obtain ⟨front, ends⟩ := orderly.allowed_of place
  rcases List.eq_nil_or_concat' between with none | ⟨short, last, some⟩
  · exact none
  · rw [some, ← List.cons_append, ← List.append_assoc] at ends
    cases (List.append_inj' ends rfl).2
    exact absurd (by rw [some]; simp) late

/-- Behind the callback the connection is not attended to. -/
theorem not_attended (orderly : Orderly Permitted trace) {before after : List Call}
    (shape : trace = before ++ .unwatched :: .connectionClosed :: after) :
    ∀ call ∈ after, call.attends = false := by
  intro call member
  have late := (unwatched_once orderly shape).2
  obtain ⟨middle, tail, split⟩ := List.append_of_mem member
  have place : trace = (before ++ .unwatched :: .connectionClosed :: middle) ++ call :: tail := by
    rw [shape, split]
    simp
  have permitted := orderly.allowed_of place
  cases call with
  | message bytes => exact absurd (by simp) permitted
  | handleWrite => exact absurd (by simp) permitted
  | unwatched => exact absurd (List.mem_cons_of_mem _ member) late
  | connectionClosed =>
    have again : trace = before ++ .unwatched ::
        ((.connectionClosed :: middle) ++ .connectionClosed :: tail) := by
      rw [shape, split]
      rfl
    cases closed_follows orderly again
  | _ => rfl

theorem lifeCycle_iff (orderly : Orderly Permitted trace) : LifeCycle trace ↔ Concludes trace := by
  constructor
  · intro cycle before after shape
    rcases cycle with ⟨unseen, _⟩ | ⟨front, rest, shape', drained, _, _⟩
    · exact absurd (by rw [shape]; simp) unseen
    · obtain ⟨early, late⟩ := unwatched_once orderly shape
      obtain ⟨rfl, _, rfl⟩ :=
        (List.append_cons_inj_of_notMem early late).mp (shape.symm.trans shape')
      exact ⟨drained, List.mem_cons_self ..⟩
  · intro concludes
    by_cases seen : .unwatched ∈ trace
    · right
      obtain ⟨before, after, shape⟩ := List.append_of_mem seen
      obtain ⟨drained, closed⟩ := concludes before after shape
      obtain ⟨early, _⟩ := unwatched_once orderly shape
      obtain ⟨between, rest, inner⟩ := List.append_of_mem closed
      rw [inner] at shape
      cases closed_follows orderly shape
      have unclosed : .connectionClosed ∉ before :=
        fun sooner => early (unwatched_of_closed (orderly.of_prefix ⟨_, shape.symm⟩) sooner)
      exact ⟨before, rest, shape, drained, ⟨early, unclosed⟩, not_attended orderly shape⟩
    · left
      exact ⟨seen, fun closed => seen (unwatched_of_closed orderly closed)⟩

/-- Calls that end nothing neither begin nor complete an end. -/
theorem Concludes.append_iff (mild : ∀ call ∈ calls, call.Mild) :
    Concludes (trace ++ calls) ↔ Concludes trace := by
  have stern : .unwatched ∉ calls := fun member => (mild _ member).2.1 rfl
  constructor
  · intro concludes before after shape
    obtain ⟨drained, closed⟩ := concludes before (after ++ calls)
      (by rw [shape, List.append_assoc, List.cons_append])
    refine ⟨drained, (List.mem_append.mp closed).resolve_right ?_⟩
    exact fun late => (mild _ late).2.2 rfl
  · intro concludes before after shape
    rcases List.append_eq_append_iff.mp shape with ⟨more, first, second⟩ | ⟨more, first, second⟩
    · exact absurd (by rw [second]; simp) stern
    · cases more with
      | nil =>
        rw [List.nil_append] at second
        exact absurd (by rw [← second]; simp) stern
      | cons call more =>
        obtain ⟨same, rest⟩ := List.cons_eq_cons.mp second
        obtain ⟨drained, closed⟩ := concludes before more (by rw [first, same])
        exact ⟨drained, by rw [rest]; exact List.mem_append_left _ closed⟩

theorem Concludes.of_watched (watched : .unwatched ∉ trace) : Concludes trace := by
  intro before after shape
  exact absurd (by rw [shape]; simp) watched

/-- What is called behind the end does not matter once `connectionClosedCallBack` was called. -/
theorem concludes_closed_iff (orderly : Orderly Permitted trace) {before after : List Call}
    (shape : trace = before ++ .unwatched :: .connectionClosed :: after) :
    Concludes trace ↔ messageBytes before = arrivedBytes before := by
  constructor
  · intro concludes
    exact (concludes before _ shape).1
  · intro drained early late shape'
    obtain ⟨unseen, unseen'⟩ := unwatched_once orderly shape
    obtain ⟨rfl, _, rfl⟩ :=
      (List.append_cons_inj_of_notMem unseen unseen').mp (shape.symm.trans shape')
    exact ⟨drained, List.mem_cons_self ..⟩

/-- `dispatch` closes the descriptor and calls nothing. -/
theorem not_concludes_hungUp (trace : List Call) : ¬ Concludes (trace ++ [.close, .unwatched]) := by
  intro concludes
  obtain ⟨_, closed⟩ := concludes (trace ++ [.close]) [] (List.append_cons ..)
  cases closed

namespace Server

/-- Every connection that was accepted is concluded where its watch has ended. -/
def Concluding (server : Server) : Prop :=
  ∀ number, .accept ∈ server.trace number → Concludes (server.trace number)

variable {server next : Server} {event : ServerEvent} {number : Nat}

theorem Mildly.concludes_iff (mildly : Mildly server next number) :
    Concludes (next.trace number) ↔ Concludes (server.trace number) := by
  obtain ⟨calls, more, mild⟩ := mildly
  rw [more]
  exact Concludes.append_iff mild

/-- A connection that a step does not end is concluded behind the step if it was before. -/
theorem Mildly.concludes (mildly : Mildly server next number) (sound : Sound next)
    (concluded : .accept ∈ server.trace number → Concludes (server.trace number))
    (accepted : .accept ∈ next.trace number) : Concludes (next.trace number) := by
  apply mildly.concludes_iff.mpr
  by_cases begun : server.trace number = []
  · rw [begun]
    exact .of_watched nofun
  · obtain ⟨calls, more, _⟩ := mildly
    exact concluded (sound.accepted_before more begun accepted)

/-- No step concludes a connection whose watch has ended. -/
theorem Concluding.lost (sound : Sound server) (success : serverStep server event = .ok next)
    (concluding : Concluding next) : Concluding server := by
  intro number accepted
  have mildly (mild : Mildly server next number) : Concludes (server.trace number) := by
    apply mild.concludes_iff.mp
    apply concluding number
    obtain ⟨calls, more, _⟩ := mild
    rw [more]
    exact List.mem_append_left _ accepted
  rcases mild_or_watched sound success accepted with mild | watched
  · exact mildly mild
  · exact .of_watched watched

/-- A step concludes what it ends exactly when `handle_read` ends it, with no byte ready. -/
theorem Concluding.step_iff (sound : Sound server) (concluding : Concluding server)
    (success : serverStep server event = .ok next) :
    Concluding next ↔ ∀ number, ¬ HangsUp server event number ∧
      (ReadEnds server event number → server.ready number = []) := by
  obtain ⟨kept, advanced⟩ := serverStep_advanced sound success
  cases advanced with
  | mild calm trace =>
    refine iff_of_true ?_ fun number => ⟨(calm number).1, fun ends => absurd ends (calm number).2⟩
    intro number accepted
    rcases trace number with mild | ⟨_, refused⟩
    · exact mild.concludes kept (concluding number) accepted
    · exact absurd accepted refused
  | @hungUp other hangs calm own others =>
    refine iff_of_false ?_ fun healthy => (healthy other).1 hangs
    intro concluding'
    obtain ⟨head, answers, dispatches, _⟩ := hangs
    have accepted : .accept ∈ next.trace other := by
      rw [own]
      exact List.mem_append_left _ (dispatches.live sound).1
    have concluded := concluding' other accepted
    rw [own] at concluded
    exact not_concludes_hungUp _ concluded
  | @closed other ends calm closed =>
    obtain ⟨fd, closed⟩ := closed
    obtain ⟨before, after, shape, longer, drained, _⟩ := closed.own
    have concluded := concludes_closed_iff (kept.orderly other) shape
    constructor
    · intro concluding' number
      refine ⟨calm number, ?_⟩
      intro ends'
      -- one event is dispatched, so one connection ends
      obtain ⟨head, answers, dispatches, _⟩ := ends
      obtain ⟨head', answers', dispatches', _⟩ := ends'
      obtain ⟨_, _, rfl⟩ := dispatches.unique dispatches'
      have accepted : .accept ∈ next.trace other := by
        rw [shape]
        exact List.mem_append_left _ (longer.subset (dispatches.live sound).1)
      exact drained.mp (concluded.mp (concluding' other accepted))
    · intro empty number accepted
      by_cases here : number = other
      · rw [here]
        exact concluded.mpr (drained.mpr ((empty other).2 ends))
      · exact Mildly.concludes (closed.others number here) kept (concluding number) accepted

/-- The connections have gone through their life-cycle when all that ended are concluded. -/
theorem Sound.lifeCycle_iff (sound : Sound server) :
    (∀ number ∈ server.accepted, LifeCycle (server.trace number)) ↔ Concluding server := by
  unfold Concluding
  simp only [sound.mem_accepted, App.lifeCycle_iff (sound.orderly _)]

end Server

/-- For every run of a loop of the server, in any order of its events: each connection gets all
bytes that were ready before its watch ends, then one call of `connectionClosedCallBack` and no
further call, exactly when no event with `EPOLLERR` or `EPOLLHUP` is dispatched for a connection
and `readv` fails only where nothing is ready. -/
theorem life_cycle_iff (opened : Int → Bool) (events : List ServerEvent) {final : Server}
    (success : run serverStep (.start opened) events = .ok final) :
    (∀ number ∈ final.accepted, LifeCycle (final.trace number)) ↔ Along serverStep
      (fun server event => ∀ number, ¬ server.HangsUp event number ∧
        (server.ReadEnds event number → server.ready number = [])) (.start opened) events := by
  have sound : final.Sound :=
    run_invariant Server.Sound (fun _ _ _ sound _ taken => (Server.serverStep_advanced sound taken).1)
      (Server.start_sound opened) (Along.of_forall (fun _ _ _ => trivial) _) success
  rw [sound.lifeCycle_iff]
  refine run_along_iff Server.Sound Server.Concluding ?_ ?_ ?_ (Server.start_sound opened) nofun
    success
  · exact fun server event next sound taken => (Server.serverStep_advanced sound taken).1
  · exact fun server event next sound taken => Server.Concluding.lost sound taken
  · exact fun server event next sound concluding taken =>
      Server.Concluding.step_iff sound concluding taken

/-- The peer closes its end, and the connection is read. -/
theorem life_cycle_read_to_end :
    ∃ final, run serverStep (.start fun _ => false) [.establish true .connection 5 [],
        .epollWait [⟨5, epollIn⟩], .dispatch quietAnswers] = .ok final ∧
      ∀ number ∈ final.accepted, LifeCycle (final.trace number) := by
  have returns : ∃ final, run serverStep (.start fun _ => false) [.establish true .connection 5 [],
      .epollWait [⟨5, epollIn⟩], .dispatch quietAnswers] = .ok final := ⟨_, rfl⟩
  obtain ⟨final, success⟩ := returns
  refine ⟨final, success, (life_cycle_iff _ _ success).mpr ?_⟩
  have idle (server : Server) (event : ServerEvent) (other : ∀ answers, event ≠ .dispatch answers)
      (number : Nat) : ¬ server.HangsUp event number ∧
        (server.ReadEnds event number → server.ready number = []) := by
    constructor
    · rintro ⟨head, answers, dispatches, _⟩
      exact other answers dispatches.event
    · rintro ⟨head, answers, dispatches, _⟩
      exact absurd dispatches.event (other answers)
  refine ⟨idle _ _ nofun, fun next taken => ⟨idle _ _ nofun, fun later taken' =>
    ⟨fun number => ?_, fun _ _ => trivial⟩⟩⟩
  cases taken
  cases taken'
  refine ⟨?_, fun _ => rfl⟩
  rintro ⟨head, answers, dispatches, failed⟩
  cases dispatches.first
  exact absurd failed (by decide)

/-- The peer hangs up with bytes on their way: `dispatch` closes the descriptor, and neither
these bytes nor the end reach the application. -/
theorem hung_up_connection_not_told :
    ∃ final, run serverStep (.start fun _ => false) [.establish true .connection 5 [],
        .arrive 0 [104, 105], .epollWait [⟨5, epollIn ||| epollHup⟩],
        .dispatch { quietAnswers with reading := .received 9 }] = .ok final ∧
      ¬ ∀ number ∈ final.accepted, LifeCycle (final.trace number) := by
  refine ⟨_, rfl, ?_⟩
  intro cycles
  rcases cycles 0 (by decide) with ⟨watched, _⟩ | ⟨before, after, shape, _⟩
  · exact watched (by decide)
  · have told : Call.connectionClosed ∈ before ++ .unwatched :: .connectionClosed :: after := by
      simp
    rw [← shape] at told
    exact absurd told (by decide)

end Yolanda.App
