import Yolanda.App.ChannelLoop

/-! Which callbacks `dispatch` comes to call, when callbacks add, remove and change channels
in the middle of what `epoll_wait` returned. -/

namespace Yolanda.App

open Foundation

/-- What happens to a loop up to the next return of a callback. -/
inductive DeliveryEvent where
  /-- `do_channel_event` of another thread, and of the thread of the loop. -/
  | queue (type channel : Nat)
  | perform (type channel : Nat)
  /-- A new channel, and other events for a channel. -/
  | create (channel : Channel)
  | setEvents (channel : Nat) (events : BitVec 32)
  /-- `epoll_wait` returns. -/
  | epollWait (events : List EpollEvent)
  /-- `dispatch` comes to its next test of an event. -/
  | dispatch
  | callbackReturns
  /-- `handle_pending_channel` of `run`. -/
  | handlePending

namespace ChannelLoop

variable {Data : Type} (dispatcher : Dispatcher Data)

/-- The body of the loop of `handle_pending_channel`. -/
def handlePending (loop : ChannelLoop Data) (element : ChannelElement Nat) :
    Except Fault (ChannelLoop Data) := do
  let channel ← loop.channelAt element.channel
  let fd := channel.fd
  if element.type = 1 then loop.operate dispatcher (.add fd element.channel true)
  else if element.type = 2 then loop.operate dispatcher (.remove fd element.channel)
  else if element.type = 3 then loop.operate dispatcher (.update fd element.channel)
  else return loop

def handleAll (loop : ChannelLoop Data) :
    List (ChannelElement Nat) → Except Fault (ChannelLoop Data)
  | [] => .ok loop
  | element :: elements => do
    let loop ← loop.handlePending dispatcher element
    handleAll loop elements

/-- `handle_pending_channel` -/
def handlePendingChannel (loop : ChannelLoop Data) : Except Fault (ChannelLoop Data) := do
  let loop ← loop.handleAll dispatcher loop.pending
  return { loop with pending := [] }

/-- `channel_buffer_nolock` -/
def channelBufferNolock (loop : ChannelLoop Data) (channel type : Nat) : ChannelLoop Data :=
  { loop with pending := loop.pending ++ [⟨type, channel⟩] }

/-- The body of the loop of `dispatch`, which ends here at each call of
`channel_event_activate`. -/
def dispatch (loop : ChannelLoop Data) : Except Fault (ChannelLoop Data) :=
  match loop.due with
  | some event =>
    let later := { loop with due := none }
    if event.events &&& epollOut ≠ 0 then later.channelEventActivate event.fd eventWrite
    else .ok later
  | none =>
    match loop.reported with
    | [] => .ok loop
    | event :: reported =>
      if event.failed then .ok { loop with
        reported
        dispatcherData := dispatcher.close event.fd loop.dispatcherData }
      else
        let later := { loop with reported, due := some event }
        if event.events &&& epollIn ≠ 0 then later.channelEventActivate event.fd eventRead
        else .ok later

/-- `run` is not in the middle of `dispatch`. -/
def dispatched (loop : ChannelLoop Data) : Bool :=
  loop.running.isNone && loop.due.isNone && loop.reported.isEmpty

/-- One step of the loop and its surroundings. An event that cannot happen changes
nothing. -/
def deliveryStep (loop : ChannelLoop Data) : DeliveryEvent → Except Fault (ChannelLoop Data)
  | .queue type channel => .ok (loop.channelBufferNolock channel type)
  | .perform type channel =>
    (loop.channelBufferNolock channel type).handlePendingChannel dispatcher
  | .create channel => .ok { loop with channels := loop.channels ++ [channel] }
  | .setEvents channel events => .ok (loop.setEvents channel events)
  | .epollWait events =>
    if loop.dispatched then .ok { loop with reported := events } else .ok loop
  | .dispatch => if loop.running.isNone then loop.dispatch dispatcher else .ok loop
  | .callbackReturns => loop.callbackReturns
  | .handlePending => if loop.dispatched then loop.handlePendingChannel dispatcher else .ok loop

/-- The descriptor of a channel. -/
def fdOf (loop : ChannelLoop Data) (number : Nat) : Option Int :=
  loop.channels[number]?.map Channel.fd

/-- `map[fd]->fd == fd` for each entry of the map. -/
def Keyed (loop : ChannelLoop Data) : Prop :=
  ∀ fd number, loop.channelMap fd = some number → loop.fdOf number = some fd

/-- The descriptor was removed, and not added again. -/
def Gone (happenings : List Happening) (fd : Int) : Prop :=
  0 ≤ fd ∧ ∃ before channel1 code after,
    happenings = before ++ .handled (.remove fd channel1) code :: after ∧
    ∀ channel memory, .handled (.add fd channel memory) 1 ∉ after

/-- Each callback that is called is one of the channel stored under the descriptor, for a
bit of `revents`. -/
def Stored (loop : ChannelLoop Data) (more : List Happening) : Prop :=
  ∀ fd revents callback data, .callback fd revents callback data ∈ more →
    ∃ number channel readiness, loop.channelMap fd = some number ∧
      loop.channels[number]? = some channel ∧ revents &&& readiness.bit ≠ 0 ∧
      channel.callback revents readiness = some callback ∧ channel.data = data

/-- The activation of a descriptor that is gone calls nothing and returns -1. -/
def Refused (loop : ChannelLoop Data) (more : List Happening) : Prop :=
  ∀ fd revents, .activate fd revents ∈ more → Gone loop.happenings fd →
    more = [.activate fd revents, .returned fd revents (-1)]

/-- The map is right, and whatever happens next, no assertion fails and callbacks are called
as they should be. -/
structure Delivers (loop : ChannelLoop Data) : Prop where
  keyed : loop.Keyed
  asserted : ∀ event, loop.deliveryStep dispatcher event ≠ .error .assertion
  delivered : ∀ event next, loop.deliveryStep dispatcher event = .ok next →
    ∃ more, next.happenings = loop.happenings ++ more ∧ loop.Stored more ∧ loop.Refused more

variable {dispatcher} {loop next : ChannelLoop Data} {fd : Int} {number : Nat}
variable {happenings more : List Happening} {last : Happening} {operation : TableOperation}
variable {element : ChannelElement Nat}

theorem Gone.of_concat (gone : Gone (happenings ++ [last]) fd) :
    0 ≤ fd ∧ ((∃ channel1 code, last = .handled (.remove fd channel1) code) ∨
      Gone happenings fd ∧ ∀ channel memory, last ≠ .handled (.add fd channel memory) 1) := by
  obtain ⟨positive, before, channel1, code, after, shape, without⟩ := gone
  refine ⟨positive, ?_⟩
  rcases List.eq_nil_or_concat' after with rfl | ⟨front, final, rfl⟩
  · obtain ⟨_, same⟩ := List.append_inj' shape rfl
    exact .inl ⟨channel1, code, List.singleton_inj.mp same⟩
  · rw [← List.cons_append, ← List.append_assoc] at shape
    obtain ⟨rest, same⟩ := List.append_inj' shape rfl
    cases List.singleton_inj.mp same
    refine .inr ⟨⟨positive, before, channel1, code, front, rest, ?_⟩, ?_⟩
    · intro channel memory inside
      exact without channel memory (List.mem_append_left _ inside)
    · rintro channel memory rfl
      exact without channel memory (List.mem_append_right _ (List.mem_singleton_self _))

/-- What neither adds nor removes leaves what is gone. -/
theorem Gone.of_quiet (gone : Gone (happenings ++ [last]) fd)
    (quiet : ∀ operation code, last ≠ .handled operation code) : Gone happenings fd := by
  rcases gone.of_concat.2 with ⟨channel1, code, same⟩ | ⟨earlier, _⟩
  · exact absurd same (quiet _ _)
  · exact earlier

/-- What a handler can do. -/
inductive Operated (loop : ChannelLoop Data) (operation : TableOperation) :
    ChannelLoop Data → Prop where
  /-- A negative descriptor, one already in the map, or one not in the map. -/
  | refused (code : Int) (kept : ∀ fd channel memory, operation = .add fd channel memory → code ≠ 1)
      (free : ∀ fd channel1, operation = .remove fd channel1 → 0 ≤ fd → loop.channelMap fd = none) :
      Operated loop operation (loop.note (.handled operation code))
  | added (fd : Int) (number : Nat) (memory : Bool) (added : Channel) (data : Data)
      (asked : operation = .add fd number memory)
      (known : loop.channels[number]? = some added) :
      Operated loop operation (({ loop with
          dispatcherData := data
          channelMap := Function.update loop.channelMap fd (some number) }.note
            (.control .add added)).note (.handled operation 1))
  | removed (fd : Int) (number : Nat) (mapped : Channel) (data : Data) (code : Int)
      (asked : operation = .remove fd number) :
      Operated loop operation (({ loop with
          dispatcherData := data
          channelMap := Function.update loop.channelMap fd none }.note
            (.control .del mapped)).note (.handled operation code))
  | updated (fd : Int) (number : Nat) (changed : Channel) (data : Data)
      (asked : operation = .update fd number) :
      Operated loop operation (({ loop with dispatcherData := data }.note
        (.control .mod changed)).note (.handled operation 0))

private theorem operate_add {memory : Bool}
    (taken : loop.operate dispatcher (.add fd number memory) = .ok next) :
    Operated loop (.add fd number memory) next := by
  obtain ⟨⟨code, middle⟩, handled, same⟩ := bind_eq_ok.mp taken
  cases same
  change loop.handlePendingAdd dispatcher fd number = .ok (code, middle) at handled
  unfold handlePendingAdd at handled
  by_cases negative : fd < 0
  · rw [if_pos negative] at handled
    cases handled
    exact .refused 0 (by simp) (by simp)
  · rw [if_neg negative] at handled
    cases found : loop.channelMap fd with
    | some other =>
      rw [found] at handled
      cases handled
      exact .refused 0 (by simp) (by simp)
    | none =>
      rw [found] at handled
      obtain ⟨added, known, handled⟩ := bind_eq_ok.mp handled
      obtain ⟨⟨result, entered⟩, called, handled⟩ := bind_eq_ok.mp handled
      obtain ⟨data, _, rfl⟩ := control_ok.mp called
      cases handled
      exact .added fd number memory added data rfl (channelAt_ok.mp known)

private theorem operate_remove (taken : loop.operate dispatcher (.remove fd number) = .ok next) :
    Operated loop (.remove fd number) next := by
  obtain ⟨⟨code, middle⟩, handled, same⟩ := bind_eq_ok.mp taken
  cases same
  change loop.handlePendingRemove dispatcher fd number = .ok (code, middle) at handled
  unfold handlePendingRemove at handled
  obtain ⟨given, _, handled⟩ := bind_eq_ok.mp handled
  by_cases differs : fd ≠ given.fd
  · rw [if_pos differs] at handled
    cases handled
  rw [if_neg differs] at handled
  by_cases negative : fd < 0
  · rw [if_pos negative] at handled
    cases handled
    refine .refused 0 (by simp) ?_
    intro other channel1 same positive
    cases same
    exact absurd negative (Int.not_lt.mpr positive)
  · rw [if_neg negative] at handled
    cases found : loop.channelMap fd with
    | none =>
      rw [found] at handled
      cases handled
      refine .refused (-1) (by simp) ?_
      intro other channel1 same _
      cases same
      exact found
    | some other =>
      rw [found] at handled
      obtain ⟨mapped, _, handled⟩ := bind_eq_ok.mp handled
      obtain ⟨⟨result, entered⟩, called, handled⟩ := bind_eq_ok.mp handled
      obtain ⟨data, _, rfl⟩ := control_ok.mp called
      cases handled
      exact .removed fd number mapped data _ rfl

private theorem operate_update (taken : loop.operate dispatcher (.update fd number) = .ok next) :
    Operated loop (.update fd number) next := by
  obtain ⟨⟨code, middle⟩, handled, same⟩ := bind_eq_ok.mp taken
  cases same
  change loop.handlePendingUpdate dispatcher fd number = .ok (code, middle) at handled
  unfold handlePendingUpdate at handled
  by_cases negative : fd < 0
  · rw [if_pos negative] at handled
    cases handled
    exact .refused 0 (by simp) (by simp)
  · rw [if_neg negative] at handled
    cases found : loop.channelMap fd with
    | none =>
      rw [found] at handled
      cases handled
      exact .refused (-1) (by simp) (by simp)
    | some other =>
      rw [found] at handled
      obtain ⟨changed, _, handled⟩ := bind_eq_ok.mp handled
      obtain ⟨⟨result, entered⟩, called, handled⟩ := bind_eq_ok.mp handled
      obtain ⟨data, _, rfl⟩ := control_ok.mp called
      cases handled
      exact .updated fd number changed data rfl

theorem operate_operated (taken : loop.operate dispatcher operation = .ok next) :
    Operated loop operation next := by
  cases operation with
  | add fd number memory => exact operate_add taken
  | remove fd number => exact operate_remove taken
  | update fd number => exact operate_update taken

/-- The map is right, what is gone is not in it, and `channel_event_activate` has no bit left
for which it could call another callback. -/
structure Sound (loop : ChannelLoop Data) : Prop where
  keyed : loop.Keyed
  gone : ∀ fd, Gone loop.happenings fd → loop.channelMap fd = none
  spent : ∀ activation later, loop.running = some (activation, later) →
    ∀ readiness ∈ later, activation.revents &&& readiness.bit = 0

theorem start_sound (data : Data) (channels : List Channel) : (start data channels).Sound := by
  refine ⟨?_, fun _ _ => rfl, ?_⟩
  · intro fd number found
    cases found
  · intro activation later running
    cases running

/-- A handler keeps the map right, if it adds a channel under its own descriptor. -/
theorem Operated.keyed (operated : Operated loop operation next) (keyed : loop.Keyed)
    (own : ∀ fd number memory, operation = .add fd number memory → loop.fdOf number = some fd) :
    next.Keyed := by
  cases operated with
  | refused code kept free => exact keyed
  | updated fd number changed data asked => exact keyed
  | added fd number memory added data asked known =>
    intro other place found
    change Function.update loop.channelMap fd (some number) other = some place at found
    by_cases same : other = fd
    · subst same
      rw [Function.update_self] at found
      cases found
      exact own other number memory asked
    · rw [Function.update_of_ne same] at found
      exact keyed other place found
  | removed fd number mapped data code asked =>
    intro other place found
    change Function.update loop.channelMap fd none other = some place at found
    by_cases same : other = fd
    · subst same
      rw [Function.update_self] at found
      cases found
    · rw [Function.update_of_ne same] at found
      exact keyed other place found

/-- What is gone after a handler is not in the map. -/
theorem Operated.gone (operated : Operated loop operation next)
    (free : ∀ fd, Gone loop.happenings fd → loop.channelMap fd = none)
    (gone : Gone next.happenings fd) : next.channelMap fd = none := by
  cases operated with
  | refused code kept absent =>
    obtain ⟨positive, removal | ⟨earlier, _⟩⟩ := gone.of_concat
    · obtain ⟨channel1, _, same⟩ := removal
      cases same
      exact absent fd channel1 rfl positive
    · exact free fd earlier
  | added other number memory added data asked known =>
    obtain ⟨_, removal | ⟨earlier, again⟩⟩ := gone.of_concat
    · obtain ⟨channel1, _, same⟩ := removal
      cases same
      cases asked
    · have differs : fd ≠ other := by
        rintro rfl
        exact again number memory (congrArg (Happening.handled · 1) asked)
      have before := free fd (earlier.of_quiet (by simp))
      exact (Function.update_of_ne differs _ _).trans before
  | removed other number mapped data code asked =>
    change Function.update loop.channelMap other none fd = none
    by_cases same : fd = other
    · rw [same, Function.update_self]
    · obtain ⟨_, removal | ⟨earlier, _⟩⟩ := gone.of_concat
      · obtain ⟨channel1, _, shape⟩ := removal
        cases shape
        cases asked
        exact absurd rfl same
      · rw [Function.update_of_ne same]
        exact free fd (earlier.of_quiet (by simp))
  | updated other number changed data asked =>
    obtain ⟨_, removal | ⟨earlier, _⟩⟩ := gone.of_concat
    · obtain ⟨channel1, _, same⟩ := removal
      cases same
      cases asked
    · exact free fd (earlier.of_quiet (by simp))

/-- Calls of the dispatcher and returns of handlers. -/
def Plain (more : List Happening) : Prop :=
  ∀ happening ∈ more, (∃ operation channel, happening = .control operation channel) ∨
    ∃ operation code, happening = .handled operation code

/-- Operations were carried out, and no callback was called. -/
structure Carried (loop next : ChannelLoop Data) : Prop where
  sound : next.Sound
  plain : ∃ more, next.happenings = loop.happenings ++ more ∧ Plain more

theorem Carried.refl (sound : loop.Sound) : Carried loop loop :=
  ⟨sound, [], (List.append_nil _).symm, by simp [Plain]⟩

theorem Carried.trans {middle : ChannelLoop Data} (before : Carried loop middle)
    (after : Carried middle next) : Carried loop next := by
  obtain ⟨first, grown, plain⟩ := before.plain
  obtain ⟨second, again, rest⟩ := after.plain
  refine ⟨after.sound, first ++ second, ?_, ?_⟩
  · rw [again, grown, List.append_assoc]
  · intro happening member
    rcases List.mem_append.mp member with early | late
    · exact plain happening early
    · exact rest happening late

theorem Operated.carried (operated : Operated loop operation next) (sound : loop.Sound)
    (own : ∀ fd number memory, operation = .add fd number memory → loop.fdOf number = some fd) :
    Carried loop next := by
  have running : next.running = loop.running := by
    cases operated with
    | _ => rfl
  refine ⟨⟨operated.keyed sound.keyed own, fun _ => operated.gone sound.gone, ?_⟩, ?_⟩
  · rw [running]
    exact sound.spent
  · have pair : ∀ control channel code,
        Plain [.control control channel, .handled operation code] := by
      simp [Plain]
    cases operated with
    | refused code kept free => exact ⟨[.handled operation code], rfl, by simp [Plain]⟩
    | added fd number memory added data asked known =>
      exact ⟨_, List.append_assoc _ _ _, pair .add added 1⟩
    | removed fd number mapped data code asked =>
      exact ⟨_, List.append_assoc _ _ _, pair .del mapped code⟩
    | updated fd number changed data asked =>
      exact ⟨_, List.append_assoc _ _ _, pair .mod changed 0⟩

theorem handlePending_carried (sound : loop.Sound)
    (taken : loop.handlePending dispatcher element = .ok next) : Carried loop next := by
  unfold handlePending at taken
  obtain ⟨channel, known, taken⟩ := bind_eq_ok.mp taken
  have named : loop.fdOf element.channel = some channel.fd :=
    congrArg (Option.map Channel.fd) (channelAt_ok.mp known)
  split at taken
  · apply (operate_operated taken).carried sound
    intro fd number memory same
    cases same
    exact named
  split at taken
  · exact (operate_operated taken).carried sound (by simp)
  split at taken
  · exact (operate_operated taken).carried sound (by simp)
  · cases taken
    exact .refl sound

theorem handleAll_carried {elements : List (ChannelElement Nat)} (sound : loop.Sound)
    (taken : loop.handleAll dispatcher elements = .ok next) : Carried loop next := by
  induction elements generalizing loop with
  | nil =>
    cases taken
    exact .refl sound
  | cons element elements ih =>
    obtain ⟨middle, handled, rest⟩ := bind_eq_ok.mp taken
    have first := handlePending_carried sound handled
    exact first.trans (ih first.sound rest)

theorem handlePendingChannel_carried (sound : loop.Sound)
    (taken : loop.handlePendingChannel dispatcher = .ok next) : Carried loop next := by
  obtain ⟨last, handled, same⟩ := bind_eq_ok.mp taken
  cases same
  have carried := handleAll_carried sound handled
  exact ⟨⟨carried.sound.keyed, carried.sound.gone, carried.sound.spent⟩, carried.plain⟩

end ChannelLoop

end Yolanda.App
