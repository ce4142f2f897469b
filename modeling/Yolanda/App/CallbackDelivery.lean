import Yolanda.App.Delivery

/-! Callbacks in every run of a loop: whose they are, and that none is called for a descriptor
that was removed. -/

namespace Yolanda.App

open Foundation

namespace ChannelLoop

variable {Data : Type} {dispatcher : Dispatcher Data} {loop next : ChannelLoop Data} {fd : Int}
variable {number : Nat} {more : List Happening} {last : Happening}
variable {element : ChannelElement Nat}

/-- What `channel_event_activate` does up to the next callback or its return. -/
theorem callCallbacks_cases {activation : Activation} {bits : List Readiness}
    (taken : loop.callCallbacks activation bits = .ok next) :
    next = { loop with running := none }.note
        (.returned activation.fd activation.revents 0) ∨
      ∃ channel readiness later callback, loop.channels[activation.channel]? = some channel ∧
        readiness :: later <:+ bits ∧
        channel.callback activation.revents readiness = some callback ∧
        next = loop.call activation later callback channel.data := by
  induction bits with
  | nil =>
    cases taken
    exact .inl rfl
  | cons readiness later ih =>
    unfold callCallbacks at taken
    cases known : loop.channels[activation.channel]? with
    | none =>
      rw [known] at taken
      cases taken
    | some channel =>
      cases called : channel.callback activation.revents readiness with
      | some callback =>
        simp only [known, called] at taken
        cases taken
        exact .inr ⟨channel, readiness, later, callback, rfl, List.suffix_rfl, called, rfl⟩
      | none =>
        simp only [known, called] at taken
        rcases ih taken with returned | ⟨other, bit, rest, callback, found, inside, named, same⟩
        · exact .inl returned
        · exact .inr ⟨other, bit, rest, callback, known ▸ found,
            inside.trans (List.suffix_cons readiness later), named, same⟩

/-- A callback is called for one of the bits. -/
theorem bit_of_callback {channel : Channel} {revents : BitVec 32} {readiness : Readiness}
    {callback : EventCallback} (called : channel.callback revents readiness = some callback) :
    revents &&& readiness.bit ≠ 0 := by
  intro zero
  unfold Channel.callback at called
  rw [if_neg (not_not_intro zero)] at called
  cases called

/-- A call for one bit has no other bit left behind the callback of that bit. -/
theorem spent_of_called {asked readiness : Readiness} {later : List Readiness} {channel : Channel}
    {callback : EventCallback} (inside : readiness :: later <:+ [.read, .write])
    (called : channel.callback asked.bit readiness = some callback) :
    ∀ other ∈ later, asked.bit &&& other.bit = 0 := by
  have bit := bit_of_callback called
  have cases : readiness = .read ∧ later = [.write] ∨ later = [] := by
    rcases List.suffix_cons_iff.mp inside with whole | rest
    · cases whole
      exact .inl ⟨rfl, rfl⟩
    · rcases List.suffix_cons_iff.mp rest with whole | none
      · cases whole
        exact .inr rfl
      · cases List.suffix_nil.mp none
  rcases cases with ⟨rfl, rfl⟩ | rfl
  · intro other member
    rw [List.mem_singleton.mp member]
    cases asked with
    | read => decide
    | write => exact absurd (by decide) bit
  · simp

theorem Sound.note (sound : loop.Sound) (quiet : ∀ operation code, last ≠ .handled operation code) :
    (loop.note last).Sound :=
  ⟨sound.keyed, fun fd gone => sound.gone fd (gone.of_quiet quiet), sound.spent⟩

theorem Sound.finish (sound : loop.Sound) (activation : Activation) :
    ({ loop with running := none }.note
      (.returned activation.fd activation.revents 0)).Sound := by
  have idle : ({ loop with running := none } : ChannelLoop Data).Sound :=
    ⟨sound.keyed, sound.gone, fun _ _ running => by cases running⟩
  exact idle.note (by simp)

theorem Sound.call (sound : loop.Sound) {activation : Activation} {later : List Readiness}
    (spent : ∀ other ∈ later, activation.revents &&& other.bit = 0) (callback : EventCallback)
    (data : Pointer) : (loop.call activation later callback data).Sound := by
  have running : ({ loop with running := some (activation, later) } : ChannelLoop Data).Sound := by
    refine ⟨sound.keyed, sound.gone, ?_⟩
    intro other rest same
    cases same
    exact spent
  exact running.note (by simp)

/-- A step that is as it should be. -/
structure Right (loop next : ChannelLoop Data) : Prop where
  sound : next.Sound
  delivered : ∃ more, next.happenings = loop.happenings ++ more ∧ loop.Stored more ∧
    loop.Refused more

/-- What calls no callback and activates nothing is right. -/
theorem Right.of_silent (sound : next.Sound) (grown : next.happenings = loop.happenings ++ more)
    (silent : ∀ happening ∈ more, (∀ fd revents, happening ≠ .activate fd revents) ∧
      ∀ fd revents callback data, happening ≠ .callback fd revents callback data) :
    Right loop next := by
  refine ⟨sound, more, grown, ?_, ?_⟩
  · intro fd revents callback data member
    exact absurd rfl ((silent _ member).2 fd revents callback data)
  · intro fd revents member
    exact absurd rfl ((silent _ member).1 fd revents)

theorem Right.idle (sound : next.Sound) (same : next.happenings = loop.happenings) :
    Right loop next :=
  .of_silent sound (same.trans (List.append_nil _).symm) (by simp)

theorem Carried.right (carried : Carried loop next) : Right loop next := by
  obtain ⟨more, grown, plain⟩ := carried.plain
  refine .of_silent carried.sound grown ?_
  intro happening member
  rcases plain happening member with ⟨_, _, rfl⟩ | ⟨_, _, rfl⟩
  · simp
  · simp

/-- A descriptor in the map is not gone. -/
theorem refused_of_present {revents : BitVec 32} (sound : loop.Sound)
    (found : loop.channelMap fd = some number)
    (silent : ∀ fd revents, last ≠ .activate fd revents) :
    loop.Refused [.activate fd revents, last] := by
  intro other bits member gone
  rcases List.mem_cons.mp member with same | rest
  · cases same
    rw [sound.gone _ gone] at found
    cases found
  · exact absurd (List.mem_singleton.mp rest).symm (silent other bits)

/-- The steps of a call of `channel_event_activate` for one bit. -/
theorem channelEventActivate_right {asked : Readiness} (sound : loop.Sound)
    (taken : loop.channelEventActivate fd asked.bit = .ok next) : Right loop next := by
  have called : (loop.note (.activate fd asked.bit)).Sound := sound.note (by simp)
  unfold channelEventActivate at taken
  by_cases negative : fd < 0
  · rw [if_pos negative] at taken
    cases taken
    refine ⟨called.note (by simp), _, List.append_assoc _ _ _, by simp [Stored], ?_⟩
    intro other revents member gone
    have same : other = fd := by
      simpa using And.left (by simpa using member)
    exact absurd (same ▸ gone.1) (Int.not_le.mpr negative)
  rw [if_neg negative] at taken
  cases found : loop.channelMap fd with
  | none =>
    rw [found] at taken
    cases taken
    refine ⟨called.note (by simp), _, List.append_assoc _ _ _, by simp [Stored], ?_⟩
    intro other revents member _
    have same : other = fd ∧ revents = asked.bit := by simpa using member
    rw [same.1, same.2]
    rfl
  | some number =>
    rw [found] at taken
    obtain ⟨channel, known, taken⟩ := bind_eq_ok.mp taken
    have place := channelAt_ok.mp known
    split at taken
    · cases taken
    · rcases callCallbacks_cases taken with rfl | called_back
      · refine ⟨called.finish _, _, List.append_assoc _ _ _, by simp [Stored], ?_⟩
        exact refused_of_present sound found (by simp)
      · obtain ⟨other, bit, rest, callback, held, inside, named, rfl⟩ := called_back
        have same : channel = other := Option.some.inj (place.symm.trans held)
        subst same
        refine ⟨called.call (spent_of_called inside named) callback channel.data, _,
          List.append_assoc _ _ _, ?_, refused_of_present sound found (by simp)⟩
        intro asker revents callee data member
        have shape : asker = fd ∧ revents = asked.bit ∧ callee = callback ∧
            data = channel.data := by simpa using member
        obtain ⟨rfl, rfl, rfl, rfl⟩ := shape
        exact ⟨number, channel, bit, found, place, bit_of_callback named, named, rfl⟩

theorem callbackReturns_right (sound : loop.Sound) (taken : loop.callbackReturns = .ok next) :
    Right loop next := by
  unfold callbackReturns at taken
  split at taken
  · cases taken
    exact .idle sound rfl
  · rename_i activation later running
    rcases callCallbacks_cases taken with rfl | ⟨_, bit, _, _, _, inside, called, _⟩
    · exact .of_silent (sound.finish activation) rfl (by simp)
    · have zero := sound.spent activation later running bit (inside.subset (List.mem_cons_self ..))
      exact absurd zero (bit_of_callback called)

theorem dispatch_right (sound : loop.Sound) (taken : loop.dispatch dispatcher = .ok next) :
    Right loop next := by
  have other : ∀ reported due data, ({ loop with
      reported
      due
      dispatcherData := data } : ChannelLoop Data).Sound :=
    fun _ _ _ => ⟨sound.keyed, sound.gone, sound.spent⟩
  -- what `dispatch` notes for itself is not seen by the call
  have activated : ∀ {reported due data fd} {asked : Readiness},
      ({ loop with
        reported
        due
        dispatcherData := data } : ChannelLoop Data).channelEventActivate fd asked.bit = .ok next →
      Right loop next := by
    intro reported due data fd asked taken
    obtain ⟨kept, more, grown, stored, refused⟩ :=
      channelEventActivate_right (other reported due data) taken
    exact ⟨kept, more, grown, stored, refused⟩
  unfold dispatch at taken
  split at taken
  · rename_i event due
    split at taken
    · exact @activated loop.reported none loop.dispatcherData event.fd .write taken
    · cases taken
      exact .idle (other _ _ _) rfl
  · split at taken
    · cases taken
      exact .idle sound rfl
    · rename_i event reported _
      split at taken
      · cases taken
        exact .idle (other _ _ _) rfl
      · split at taken
        · exact @activated reported (some event) loop.dispatcherData event.fd .read taken
        · cases taken
          exact .idle (other _ _ _) rfl

theorem Keyed.of_fdOf (keyed : loop.Keyed) (map : next.channelMap = loop.channelMap)
    (kept : ∀ number fd, loop.fdOf number = some fd → next.fdOf number = some fd) : next.Keyed := by
  intro fd number found
  rw [map] at found
  exact kept number fd (keyed fd number found)

/-- Every step is right. -/
theorem deliveryStep_right {event : DeliveryEvent} (sound : loop.Sound)
    (taken : loop.deliveryStep dispatcher event = .ok next) : Right loop next := by
  have queued : ∀ channel type, (loop.channelBufferNolock channel type).Sound :=
    fun _ _ => ⟨sound.keyed, sound.gone, sound.spent⟩
  cases event with
  | queue type channel =>
    cases taken
    exact .idle (queued channel type) rfl
  | perform type channel =>
    have carried := handlePendingChannel_carried (queued channel type) taken
    exact Carried.right ⟨carried.sound, carried.plain⟩
  | create channel =>
    cases taken
    refine .idle ⟨sound.keyed.of_fdOf rfl ?_, sound.gone, sound.spent⟩ rfl
    intro number fd named
    obtain ⟨old, known, same⟩ := Option.map_eq_some_iff.mp named
    have inside := (List.getElem?_eq_some_iff.mp known).1
    exact Option.map_eq_some_iff.mpr
      ⟨old, (List.getElem?_append_left inside).trans known, same⟩
  | setEvents channel events =>
    cases taken
    refine .idle ⟨sound.keyed.of_fdOf rfl ?_, sound.gone, sound.spent⟩ rfl
    intro number fd named
    obtain ⟨old, known, same⟩ := Option.map_eq_some_iff.mp named
    simp only [fdOf, setEvents, List.getElem?_modify, known, Option.map_some, Option.map_eq_map]
    split
    · exact congrArg some same
    · exact congrArg some same
  | epollWait events =>
    simp only [deliveryStep] at taken
    split at taken
    · cases taken
      exact .idle ⟨sound.keyed, sound.gone, sound.spent⟩ rfl
    · cases taken
      exact .idle sound rfl
  | dispatch =>
    simp only [deliveryStep] at taken
    split at taken
    · exact dispatch_right sound taken
    · cases taken
      exact .idle sound rfl
  | callbackReturns => exact callbackReturns_right sound taken
  | handlePending =>
    simp only [deliveryStep] at taken
    split at taken
    · exact (handlePendingChannel_carried sound taken).right
    · cases taken
      exact .idle sound rfl

theorem control_error {control : EpollControl} {channel : Channel} {fault : Fault}
    (failed : loop.control dispatcher control channel = .error fault) : fault = .epollCtl := by
  unfold ChannelLoop.control at failed
  split at failed
  · cases failed
    rfl
  · cases failed

theorem channelAt_error {fault : Fault} (failed : loop.channelAt number = .error fault) :
    fault = .memory := by
  unfold channelAt at failed
  split at failed
  · cases failed
  · cases failed
    rfl

theorem callCallbacks_error {activation : Activation} {bits : List Readiness} {fault : Fault}
    (failed : loop.callCallbacks activation bits = .error fault) : fault = .memory := by
  induction bits with
  | nil => cases failed
  | cons readiness later ih =>
    unfold callCallbacks at failed
    split at failed
    · cases failed
      rfl
    · split at failed
      · cases failed
      · exact ih failed

/-- Behind a channel that is read and a call of the dispatcher no assertion fails. -/
theorem behind_control {control : EpollControl} {after : Int × ChannelLoop Data → α}
    (failed : (loop.channelAt number >>= fun channel =>
      loop.control dispatcher control channel >>= fun result => pure (after result)) =
        .error .assertion) : False := by
  rcases bind_eq_error.mp failed with unknown | ⟨channel, _, failed⟩
  · cases channelAt_error unknown
  · rcases bind_eq_error.mp failed with refused | ⟨result, _, failed⟩
    · cases control_error refused
    · cases failed

/-- An operation on a channel under its own descriptor passes the assertion. -/
theorem handlePending_asserted : loop.handlePending dispatcher element ≠ .error .assertion := by
  intro failed
  unfold handlePending at failed
  rcases bind_eq_error.mp failed with unknown | ⟨channel, known, failed⟩
  · cases channelAt_error unknown
  split at failed
  · rcases bind_eq_error.mp failed with inner | ⟨result, _, failed⟩
    · change loop.handlePendingAdd dispatcher channel.fd element.channel = _ at inner
      unfold handlePendingAdd at inner
      split at inner
      · cases inner
      split at inner
      · exact behind_control inner
      · cases inner
    · cases failed
  split at failed
  · rcases bind_eq_error.mp failed with inner | ⟨result, _, failed⟩
    · change loop.handlePendingRemove dispatcher channel.fd element.channel = _ at inner
      unfold handlePendingRemove at inner
      rw [known, ok_bind, if_neg (fun differs => differs rfl)] at inner
      split at inner
      · cases inner
      split at inner
      · cases inner
      · exact behind_control inner
    · cases failed
  split at failed
  · rcases bind_eq_error.mp failed with inner | ⟨result, _, failed⟩
    · change loop.handlePendingUpdate dispatcher channel.fd element.channel = _ at inner
      unfold handlePendingUpdate at inner
      split at inner
      · cases inner
      split at inner
      · cases inner
      · exact behind_control inner
    · cases failed
  · cases failed

theorem handlePendingChannel_asserted :
    loop.handlePendingChannel dispatcher ≠ .error .assertion := by
  have all : ∀ (elements : List (ChannelElement Nat)) (loop : ChannelLoop Data),
      loop.handleAll dispatcher elements ≠ .error .assertion := by
    intro elements
    induction elements with
    | nil =>
      intro loop failed
      cases failed
    | cons element elements ih =>
      intro loop failed
      rcases bind_eq_error.mp failed with here | ⟨next, _, later⟩
      · exact handlePending_asserted here
      · exact ih next later
  intro failed
  rcases bind_eq_error.mp failed with inner | ⟨last, _, failed⟩
  · exact all _ _ inner
  · cases failed

theorem channelEventActivate_asserted {revents : BitVec 32} (keyed : loop.Keyed) :
    loop.channelEventActivate fd revents ≠ .error .assertion := by
  intro failed
  unfold channelEventActivate at failed
  split at failed
  · cases failed
  cases found : loop.channelMap fd with
  | none =>
    rw [found] at failed
    cases failed
  | some number =>
    rw [found] at failed
    obtain ⟨channel, known, own⟩ := Option.map_eq_some_iff.mp (keyed fd number found)
    have place := channelAt_ok.mpr known
    simp only [place, ok_bind, own, ne_eq, not_true, if_false] at failed
    cases callCallbacks_error failed

/-- No step fails an assertion. -/
theorem deliveryStep_asserted (sound : loop.Sound) (event : DeliveryEvent) :
    loop.deliveryStep dispatcher event ≠ .error .assertion := by
  intro failed
  cases event with
  | queue type channel => cases failed
  | perform type channel => exact handlePendingChannel_asserted failed
  | create channel => cases failed
  | setEvents channel events => cases failed
  | epollWait events =>
    simp only [deliveryStep] at failed
    split at failed
    · cases failed
    · cases failed
  | dispatch =>
    simp only [deliveryStep] at failed
    split at failed
    · unfold dispatch at failed
      split at failed
      · split at failed
        · refine channelEventActivate_asserted ?_ failed
          exact sound.keyed
        · cases failed
      · split at failed
        · cases failed
        split at failed
        · cases failed
        split at failed
        · refine channelEventActivate_asserted ?_ failed
          exact sound.keyed
        · cases failed
    · cases failed
  | callbackReturns =>
    simp only [deliveryStep, callbackReturns] at failed
    split at failed
    · cases failed
    · cases callCallbacks_error failed
  | handlePending =>
    simp only [deliveryStep] at failed
    split at failed
    · exact handlePendingChannel_asserted failed
    · cases failed

theorem Sound.delivers (sound : loop.Sound) : loop.Delivers dispatcher :=
  ⟨sound.keyed, deliveryStep_asserted sound, fun _ _ taken =>
    (deliveryStep_right sound taken).delivered⟩

end ChannelLoop

open ChannelLoop

/-- In every state of every run the map is right, and whatever happens next, no assertion
fails, only callbacks of the channel under the descriptor are called, and a descriptor that
is gone is refused. -/
theorem callbacks_delivered (dispatcher : Dispatcher Data) {data : Data} {channels : List Channel}
    {events : List DeliveryEvent} {loop : ChannelLoop Data}
    (success : run (deliveryStep dispatcher) (.start data channels) events = .ok loop) :
    loop.Delivers dispatcher := by
  have sound : loop.Sound :=
    run_invariant Sound (fun _ _ _ sound _ taken => (deliveryStep_right sound taken).sound)
      (start_sound data channels) (Along.of_forall (fun _ _ _ => trivial) _) success
  exact sound.delivers

/-- A connection that is readable and writable, whose read callback removes it. -/
def sampleDelivery : List DeliveryEvent :=
  [.perform 1 0, .epollWait [⟨5, epollIn ||| epollOut⟩], .dispatch, .perform 2 0,
    .callbackReturns, .dispatch]

theorem callbacks_delivered_sample :
    ∃ loop, run (deliveryStep epollDispatcher)
        (.start ⟨fun _ => true, fun _ => none⟩ [connectionChannel 0 5]) sampleDelivery = .ok loop ∧
      loop.happenings.getLast? = some (.returned 5 eventWrite (-1)) ∧
      loop.Delivers epollDispatcher := by
  have taken : ∃ loop, run (deliveryStep epollDispatcher)
      (.start ⟨fun _ => true, fun _ => none⟩ [connectionChannel 0 5]) sampleDelivery = .ok loop ∧
        loop.happenings.getLast? = some (.returned 5 eventWrite (-1)) := ⟨_, rfl, rfl⟩
  obtain ⟨loop, success, last⟩ := taken
  exact ⟨loop, success, last, callbacks_delivered epollDispatcher success⟩

end Yolanda.App
