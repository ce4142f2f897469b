import Yolanda.App.ServerAdvanced

/-! Whose descriptors are open: those of the connections that have not ended, as long as no
connection ends by what `handle_read` reads. -/

namespace Yolanda.App

open Foundation

/-- The handler that ends the connection has returned: `handle_connection_closed`, or
`dispatch` with its `close`. -/
def Ended (trace : List Call) : Prop :=
  .connectionClosed ∈ trace ∨ .close ∈ trace

instance (trace : List Call) : Decidable (Ended trace) :=
  inferInstanceAs (Decidable (_ ∨ _))

/-- The calls that pass the descriptor to the kernel. -/
def Call.uses : Call → Bool
  | .read | .write | .shutdown | .epollCtl | .close => true
  | _ => false

/-- The descriptor is closed once, and not used behind that. -/
def ClosedOnce (trace : List Call) : Prop :=
  ∃ before after, trace = before ++ .close :: after ∧ .close ∉ before ∧
    ∀ call ∈ after, call.uses = false

namespace Server

/-- The connections whose descriptor `accept` has returned. -/
def accepted (server : Server) : List Nat :=
  (List.range server.registry.channels.length).filter fun number => .accept ∈ server.trace number

/-- The accepted descriptors that are open. -/
def openDescriptors (server : Server) : List Nat :=
  server.accepted.filter fun number =>
    (server.registry.fdOf number).bind server.owned = some number

def liveConnections (server : Server) : List Nat :=
  server.accepted.filter fun number => ¬ Ended (server.trace number)

/-- Every accepted descriptor is closed once when its connection ends, and no use of it comes
behind. As many of them are open as there are live connections. -/
structure OwnsDescriptors (server : Server) : Prop where
  closes : ∀ number ∈ server.accepted, Ended (server.trace number) →
    ClosedOnce (server.trace number)
  unused : ∀ number ∈ server.accepted, .close ∈ server.trace number →
    ClosedOnce (server.trace number)
  count : server.openDescriptors.length = server.liveConnections.length

/-- Behind `connectionClosedCallBack` the descriptor is closed. -/
def Settles (server : Server) : Prop :=
  ∀ number, .accept ∈ server.trace number → .connectionClosed ∈ server.trace number →
    .close ∈ server.trace number

variable {server next : Server} {event : ServerEvent} {number : Nat}

theorem Sound.mem_accepted (sound : Sound server) :
    number ∈ server.accepted ↔ .accept ∈ server.trace number := by
  unfold accepted
  rw [List.mem_filter, List.mem_range, decide_eq_true_iff]
  constructor
  · exact fun found => found.2
  · intro taken
    refine ⟨?_, taken⟩
    by_contra beyond
    rw [sound.fresh number (Nat.not_lt.mp beyond)] at taken
    cases taken

theorem Sound.closedOnce (sound : Sound server) (closed : .close ∈ server.trace number) :
    ClosedOnce (server.trace number) := by
  obtain ⟨before, after, shape, first⟩ := List.eq_append_cons_of_mem closed
  refine ⟨before, after, shape, first, ?_⟩
  intro call member
  obtain ⟨between, rest, inner⟩ := List.append_of_mem member
  have place : server.trace number = (before ++ .close :: between) ++ call :: rest := by
    rw [shape, inner, List.append_assoc, List.cons_append]
  have permitted := (sound.orderly number).allowed_of place
  cases call with
  | read | write | shutdown | epollCtl | close => exact absurd (by simp) permitted
  | _ => rfl

/-- The descriptor of an accepted connection is open until it is closed. -/
theorem Sound.open_iff (sound : Sound server) (accepted : .accept ∈ server.trace number) :
    (server.registry.fdOf number).bind server.owned = some number ↔
      .close ∉ server.trace number := by
  have inside : number < server.registry.channels.length := by
    by_contra beyond
    rw [sound.fresh number (Nat.not_lt.mp beyond)] at accepted
    cases accepted
  have place := List.getElem?_eq_getElem inside
  have named := Registry.fdOf_eq place
  have usable := ((sound.roles number _ place).mp accepted).2
  rw [named, Option.bind_some]
  constructor
  · exact sound.usable _ number
  · intro unclosed
    by_contra unheld
    exact unclosed (sound.lost _ number named usable unheld)

theorem Sound.owns_iff (sound : Sound server) : OwnsDescriptors server ↔ Settles server := by
  constructor
  · intro owns number accepted ended
    obtain ⟨before, after, shape, _⟩ := owns.closes number (sound.mem_accepted.mpr accepted)
      (.inl ended)
    rw [shape]
    simp
  · intro settles
    refine ⟨?_, fun number _ => sound.closedOnce, ?_⟩
    · intro number member ended
      exact sound.closedOnce
        (ended.elim (settles number (sound.mem_accepted.mp member)) id)
    · apply congrArg List.length
      apply List.filter_congr
      intro number member
      have accepted := sound.mem_accepted.mp member
      apply decide_eq_decide.mpr
      rw [sound.open_iff accepted]
      constructor
      · intro unclosed ended
        exact unclosed (ended.elim (settles number accepted) id)
      · exact fun alive closed => alive (.inr closed)

theorem Mildly.mem (mildly : Mildly server next number) {call : Call} (stern : ¬ call.Mild) :
    call ∈ next.trace number ↔ call ∈ server.trace number := by
  obtain ⟨calls, more, mild⟩ := mildly
  rw [more, List.mem_append]
  exact ⟨fun member => member.resolve_right fun late => stern (mild call late), .inl⟩

/-- A channel that a step does not end settles behind the step if it settled before. -/
theorem Mildly.settles (mildly : Mildly server next number) (sound : Sound next)
    (settled : .accept ∈ server.trace number → .connectionClosed ∈ server.trace number →
      .close ∈ server.trace number) (accepted : .accept ∈ next.trace number)
    (ended : .connectionClosed ∈ next.trace number) : .close ∈ next.trace number := by
  have before := (mildly.mem fun mild => mild.2.2 rfl).mp ended
  obtain ⟨calls, more, _⟩ := mildly
  have taken := sound.accepted_before more (List.ne_nil_of_mem before) accepted
  rw [more]
  exact List.mem_append_left _ (settled taken before)

/-- No step closes the descriptor of a connection that has ended. -/
theorem Settles.lost (sound : Sound server) (success : serverStep server event = .ok next)
    (settles : Settles next) : Settles server := by
  intro number accepted ended
  have unwatched := unwatched_of_closed (sound.orderly number) ended
  have mildly (mild : Mildly server next number) : .close ∈ server.trace number := by
    obtain ⟨calls, more, _⟩ := id mild
    have late := settles number (by rw [more]; exact List.mem_append_left _ accepted)
      (by rw [more]; exact List.mem_append_left _ ended)
    exact (mild.mem fun mild => mild.1 rfl).mp late
  rcases mild_or_watched sound success accepted with mild | watched
  · exact mildly mild
  · exact absurd unwatched watched

/-- A step keeps the descriptors owned exactly when it ends no connection in `handle_read`. -/
theorem Settles.step_iff (sound : Sound server) (settles : Settles server)
    (success : serverStep server event = .ok next) :
    Settles next ↔ ∀ number, ¬ ReadEnds server event number := by
  obtain ⟨kept, advanced⟩ := serverStep_advanced sound success
  cases advanced with
  | mild calm trace =>
    refine iff_of_true ?_ fun number => (calm number).2
    intro number accepted ended
    rcases trace number with mild | ⟨_, refused⟩
    · exact mild.settles kept (settles number) accepted ended
    · exact absurd accepted refused
  | @hungUp other hangs calm own others =>
    refine iff_of_true ?_ calm
    intro number accepted ended
    by_cases here : number = other
    · rw [here, own]
      simp
    · exact (others number here).settles kept (settles number) accepted ended
  | @closed other ends calm closed =>
    obtain ⟨fd, closed⟩ := closed
    refine iff_of_false ?_ fun none => none other ends
    intro settled
    obtain ⟨head, answers, dispatches, _⟩ := ends
    obtain ⟨accepted, _, held⟩ := dispatches.live sound
    obtain ⟨before, after, shape, longer, _⟩ := closed.own
    have accepted' : .accept ∈ next.trace other := by
      rw [shape]
      exact List.mem_append_left _ (longer.subset accepted)
    have ended : .connectionClosed ∈ next.trace other := by
      rw [shape]
      simp
    exact kept.usable _ other (closed.owned _ other held) (settled other accepted' ended)

end Server

/-- For every run of a loop of the server, in any order of its events: each accepted descriptor
is closed once by the handler that ends its connection and not used behind that, and as many
are open as there are live connections, exactly when no connection ends because `handle_read`
has read nothing. -/
theorem descriptors_owned_iff (opened : Int → Bool) (events : List ServerEvent) {final : Server}
    (success : run serverStep (.start opened) events = .ok final) :
    final.OwnsDescriptors ↔ Along serverStep
      (fun server event => ∀ number, ¬ server.ReadEnds event number) (.start opened) events := by
  have sound : final.Sound :=
    run_invariant Server.Sound (fun _ _ _ sound _ taken => (Server.serverStep_advanced sound taken).1)
      (Server.start_sound opened) (Along.of_forall (fun _ _ _ => trivial) _) success
  rw [sound.owns_iff]
  refine run_along_iff Server.Sound Server.Settles ?_ ?_ ?_ (Server.start_sound opened) nofun success
  · exact fun server event next sound taken => (Server.serverStep_advanced sound taken).1
  · exact fun server event next sound taken => Server.Settles.lost sound taken
  · exact fun server event next sound settles taken => Server.Settles.step_iff sound settles taken

/-- What the callbacks get where nothing is read and nothing sent. -/
def quietAnswers : Answers where
  accepted := -1
  here := true
  reading := .received 0
  actions := []
  written := []

/-- A connection whose peer hangs up: its descriptor is closed by `dispatch`. -/
theorem descriptors_owned_hung_up :
    ∃ final, run serverStep (.start fun _ => false) [.establish true .connection 5 [],
        .epollWait [⟨5, epollHup⟩], .dispatch quietAnswers] = .ok final ∧
      final.OwnsDescriptors := by
  have returns : ∃ final, run serverStep (.start fun _ => false) [.establish true .connection 5 [],
      .epollWait [⟨5, epollHup⟩], .dispatch quietAnswers] = .ok final := ⟨_, rfl⟩
  obtain ⟨final, success⟩ := returns
  refine ⟨final, success, (descriptors_owned_iff _ _ success).mpr ?_⟩
  refine ⟨fun number ends => ?_, fun next taken => ⟨fun number ends => ?_, fun later taken' =>
    ⟨fun number ends => ?_, fun _ _ => trivial⟩⟩⟩
  · obtain ⟨head, answers, dispatches, _⟩ := ends
    cases dispatches.event
  · obtain ⟨head, answers, dispatches, _⟩ := ends
    cases dispatches.event
  · cases taken
    cases taken'
    obtain ⟨head, answers, dispatches, healthy, _⟩ := ends
    cases dispatches.first
    exact absurd healthy (by decide)

/-- The peer closes its end: the connection is over, and its descriptor stays open. -/
theorem closed_connection_keeps_descriptor :
    ∃ final, run serverStep (.start fun _ => false) [.establish true .connection 5 [],
        .epollWait [⟨5, epollIn⟩], .dispatch quietAnswers] = .ok final ∧
      ¬ final.OwnsDescriptors := by
  refine ⟨_, rfl, ?_⟩
  intro owns
  exact absurd owns.count (by decide)

end Yolanda.App
