import Yolanda.Lib.TableLoop

/-! The table of the C library and the map of the C++ library under the same operations and
activations. -/

namespace Yolanda.Lib

open App (Activation Channel ChannelLoop Dispatcher EpollControl Kernel Readiness TableEvent
  TableOperation)
open Foundation

namespace TableLoop

variable {Data : Type} {dispatcher : Dispatcher Data} {loop : TableLoop Data} {fd : Int} {number : Nat} {memory : Bool}

theorem signed_of_nonneg {lookup : Nat → Option Nat} (positive : 0 ≤ fd) :
    signed lookup fd = lookup fd.toNat :=
  if_neg (Int.not_lt.mpr positive)

theorem signed_update {lookup : Nat → Option Nat} (positive : 0 ≤ fd) (entry : Option Nat) :
    signed (Function.update lookup fd.toNat entry) = Function.update (signed lookup) fd entry := by
  funext asked
  by_cases same : asked = fd
  · subst same
    rw [signed_of_nonneg positive, Function.update_self, Function.update_self]
  · rw [Function.update_of_ne same]
    unfold signed
    by_cases negative : asked < 0
    · rw [if_pos negative, if_pos negative]
    · have apart : asked.toNat ≠ fd.toNat := by omega
      rw [if_neg negative, if_neg negative, Function.update_of_ne apart]

theorem channelAt_mirrors (loop : EventLoop (Recorded Data)) (other : ChannelLoop Data)
    (same : other.channels = loop.channels) (number : Nat) :
    Mirrors id (loop.channelAt number) (other.channelAt number) := by
  unfold EventLoop.channelAt ChannelLoop.channelAt
  rw [same]
  cases loop.channels[number]? with
  | none => exact .error _ _
  | some channel => exact .ok rfl

/-- The dispatcher answers both loops alike. -/
theorem control_mirrors {recorded : Recorded Data} {other : ChannelLoop Data}
    (data : other.dispatcherData = recorded.data)
    (seen : other.happenings = recorded.happenings) (operation : EpollControl)
    (channel : Channel) :
    Mirrors (fun result => (result.1, { other with
        dispatcherData := result.2.data
        happenings := result.2.happenings }))
      (Recorded.control dispatcher operation recorded channel)
      (other.control dispatcher operation channel) := by
  unfold Recorded.control ChannelLoop.control
  rw [data]
  cases dispatcher.control operation recorded.data channel with
  | none => exact .error _ _
  | some pair =>
    refine .ok ?_
    unfold ChannelLoop.note
    rw [seen]

/-- The contents of the loop after a handler. -/
def outcome (loop : TableLoop Data) (result : Int × EventLoop (Recorded Data)) :
    Int × ChannelLoop Data :=
  (result.1, { loop with toEventLoop := result.2 }.counterpart)

theorem handlePendingAdd_mirrors (grown : loop.channelMap.Grown) (small : fd < 2 ^ 27)
    (room : loop.channelMap.nentries ≤ fd → memory = true) :
    Mirrors loop.outcome
      (loop.handlePendingAdd (Recorded.functions dispatcher) memory fd number)
      (loop.counterpart.handlePendingAdd dispatcher fd number) := by
  by_cases negative : fd < 0
  · rw [EventLoop.handlePendingAdd, ChannelLoop.handlePendingAdd, if_pos negative, if_pos negative]
    exact .ok rfl
  have positive := Int.not_lt.mp negative
  have entry : loop.counterpart.channelMap fd = loop.channelMap.lookup fd.toNat :=
    signed_of_nonneg positive
  rw [ChannelLoop.handlePendingAdd, if_neg negative, entry]
  cases found : loop.channelMap.lookup fd.toNat with
  | some other =>
    have registered : loop.channelMap.lookup fd.toNat ≠ none := by
      rw [found]
      exact Option.some_ne_none other
    rw [EventLoop.handlePendingAdd_registered positive registered]
    exact .ok rfl
  | none =>
    obtain ⟨larger, _, inside, same, grows⟩ := EventLoop.placeFor grown positive small room
    rw [EventLoop.handlePendingAdd, if_neg negative, grows]
    simp only [ok_bind, ChannelMap.read_ok inside, same, found]
    refine (channelAt_mirrors _ _ rfl number).bind ?_
    intro added _
    refine (control_mirrors rfl rfl .add added).bind ?_
    intro result _
    refine .ok ?_
    have written := ChannelMap.lookup_write inside (some number)
    unfold outcome counterpart
    rw [written, same, signed_update positive]

theorem handlePendingRemove_mirrors
    (placed : loop.Placed (.operation (.remove fd number))) :
    Mirrors loop.outcome
      (loop.handlePendingRemove (Recorded.functions dispatcher) fd number)
      (loop.counterpart.handlePendingRemove dispatcher fd number) := by
  unfold EventLoop.handlePendingRemove ChannelLoop.handlePendingRemove
  refine (channelAt_mirrors _ _ rfl number).bind ?_
  intro given known
  refine .ite (fun _ => .error _ _) fun differs => .ite (fun _ => .ok rfl) fun negative => ?_
  have positive := Int.not_lt.mp negative
  have entry : loop.counterpart.channelMap fd = loop.channelMap.lookup fd.toNat :=
    signed_of_nonneg positive
  rw [entry]
  by_cases beyond : fd ≥ loop.channelMap.nentries
  · rw [if_pos beyond, ChannelMap.lookup_of_le (by omega)]
    exact .ok rfl
  · have inside : fd.toNat < loop.channelMap.nentries := by omega
    have own : loop.channels[number]?.map Channel.fd = some fd := by
      rw [EventLoop.channelAt_eq_ok.mp known, Option.map_some, ← Decidable.not_not.mp differs]
    obtain ⟨other, found⟩ :=
      Option.ne_none_iff_exists'.mp (placed own positive (Int.not_le.mp beyond))
    rw [if_neg beyond, ChannelMap.read_ok inside, found]
    refine (channelAt_mirrors _ _ rfl other).bind ?_
    intro mapped _
    refine (control_mirrors rfl rfl .del mapped).bind ?_
    intro result _
    refine .ok ?_
    have written := ChannelMap.lookup_write inside none
    unfold outcome counterpart
    rw [written, signed_update positive]

theorem handlePendingUpdate_mirrors
    (placed : loop.Placed (.operation (.update fd number))) :
    Mirrors loop.outcome
      (loop.handlePendingUpdate (Recorded.functions dispatcher) fd number >>= fun result =>
        pure (result.1.getD 0, result.2))
      (loop.counterpart.handlePendingUpdate dispatcher fd number) := by
  unfold EventLoop.handlePendingUpdate ChannelLoop.handlePendingUpdate
  by_cases negative : fd < 0
  · rw [if_pos negative, if_pos negative]
    exact .ok rfl
  rw [if_neg negative, if_neg negative]
  have positive := Int.not_lt.mp negative
  have entry : loop.counterpart.channelMap fd = loop.channelMap.lookup fd.toNat :=
    signed_of_nonneg positive
  have bound := placed positive
  have inside : fd.toNat < loop.channelMap.nentries := by omega
  rw [entry, ChannelMap.read_ok inside, ok_bind]
  cases found : loop.channelMap.lookup fd.toNat with
  | none => exact .ok rfl
  | some other =>
    simp only [bind_assoc]
    refine (channelAt_mirrors _ _ rfl number).bind ?_
    intro changed _
    refine (control_mirrors rfl rfl .mod changed).bind ?_
    intro result _
    exact .ok rfl

/-- A handler called for an operation that has its place does what the other library does. -/
theorem operate_mirrors {operation : TableOperation} (grown : loop.channelMap.Grown)
    (small : Small (.operation operation)) (placed : loop.Placed (.operation operation)) :
    Mirrors counterpart (loop.operate dispatcher operation)
      (loop.counterpart.operate dispatcher operation) := by
  cases operation with
  | add fd number memory =>
    refine (handlePendingAdd_mirrors grown small placed).bind ?_
    intro result _
    exact .ok rfl
  | remove fd number =>
    refine (handlePendingRemove_mirrors placed).bind ?_
    intro result _
    exact .ok rfl
  | update fd number =>
    refine (handlePendingUpdate_mirrors placed).bind ?_
    intro result _
    exact .ok rfl

theorem callCallbacks_mirrors (loop : TableLoop Data) (activation : Activation) (bits : List Readiness) :
    Mirrors counterpart (loop.callCallbacks activation bits)
      (loop.counterpart.callCallbacks activation bits) := by
  induction bits with
  | nil => exact .ok rfl
  | cons readiness later ih =>
    have same : loop.counterpart.channels = loop.channels := rfl
    unfold callCallbacks ChannelLoop.callCallbacks
    rw [same]
    cases loop.channels[activation.channel]? with
    | none => exact .error _ _
    | some channel =>
      cases called : channel.callback activation.revents readiness with
      | some callback =>
        simp only [called]
        exact .ok rfl
      | none =>
        simp only [called]
        exact ih

theorem channelEventActivate_mirrors {revents : BitVec 32}
    (placed : 0 ≤ fd → fd < loop.channelMap.nentries → loop.channelMap.lookup fd.toNat ≠ none) :
    Mirrors counterpart (loop.channelEventActivate fd revents)
      (loop.counterpart.channelEventActivate fd revents) := by
  unfold channelEventActivate ChannelLoop.channelEventActivate
  refine .ite (fun _ => .ok rfl) fun negative => ?_
  have positive := Int.not_lt.mp negative
  have entry : loop.counterpart.channelMap fd = loop.channelMap.lookup fd.toNat :=
    signed_of_nonneg positive
  rw [entry]
  by_cases beyond : fd ≥ loop.channelMap.nentries
  · rw [if_pos beyond, ChannelMap.lookup_of_le (by omega)]
    exact .ok rfl
  · have inside : fd.toNat < loop.channelMap.nentries := by omega
    obtain ⟨number, found⟩ :=
      Option.ne_none_iff_exists'.mp (placed positive (Int.not_le.mp beyond))
    rw [if_neg beyond, ChannelMap.read_ok inside, found]
    refine (channelAt_mirrors _ _ rfl number).bind ?_
    intro channel _
    refine .ite (fun _ => .error _ _) fun _ => ?_
    exact (loop.note (.activate fd revents)).callCallbacks_mirrors ⟨fd, revents, number⟩ _

theorem callCallbacks_map (loop : TableLoop Data) {next : TableLoop Data} {activation : Activation}
    {bits : List Readiness} (taken : loop.callCallbacks activation bits = .ok next) :
    next.channelMap = loop.channelMap := by
  induction bits with
  | nil =>
    cases taken
    rfl
  | cons readiness later ih =>
    unfold callCallbacks at taken
    split at taken
    · cases taken
    · split at taken
      · cases taken
        rfl
      · exact ih taken

/-- An event changes no table. -/
theorem channelEventActivate_map (loop : TableLoop Data) {next : TableLoop Data}
    {revents : BitVec 32} (taken : loop.channelEventActivate fd revents = .ok next) :
    next.channelMap = loop.channelMap := by
  unfold channelEventActivate at taken
  split at taken
  · cases taken
    rfl
  split at taken
  · cases taken
    rfl
  obtain ⟨entry, _, taken⟩ := bind_eq_ok.mp taken
  cases entry with
  | none => cases taken
  | some number =>
    obtain ⟨channel, _, taken⟩ := bind_eq_ok.mp taken
    split at taken
    · cases taken
    · exact (loop.note (.activate fd revents)).callCallbacks_map taken

theorem handlePendingAdd_grown {functions : EventDispatcher (Recorded Data)} {code : Int}
    {next : EventLoop (Recorded Data)} (grown : loop.channelMap.Grown) (small : fd < 2 ^ 27)
    (taken : loop.handlePendingAdd functions memory fd number = .ok (code, next)) :
    next.channelMap.Grown := by
  unfold EventLoop.handlePendingAdd at taken
  split at taken
  case isTrue negative =>
    cases taken
    exact grown
  case isFalse positive =>
    obtain ⟨space, made, taken⟩ := bind_eq_ok.mp taken
    cases space with
    | none =>
      cases taken
      exact grown
    | some map =>
      have larger : map.Grown := by
        split at made
        case isTrue beyond =>
          obtain ⟨other, again, _, _, grows⟩ :=
            @ChannelMap.makeSpace_ok _ fd.toNat grown (by omega) (by omega)
          rw [grows] at made
          cases memory with
          | false => cases made
          | true =>
            cases made
            exact again
        case isFalse =>
          cases made
          exact grown
      obtain ⟨entry, _, taken⟩ := bind_eq_ok.mp taken
      cases entry with
      | some other =>
        cases taken
        exact larger
      | none =>
        obtain ⟨added, _, taken⟩ := bind_eq_ok.mp taken
        obtain ⟨result, _, taken⟩ := bind_eq_ok.mp taken
        cases taken
        exact larger.write _ _

/-- A step leaves a table that has grown by doubling. -/
theorem step_grown {next : TableLoop Data} {event : TableEvent} (grown : loop.channelMap.Grown)
    (small : Small event) (taken : loop.step dispatcher event = .ok next) :
    next.channelMap.Grown := by
  cases event with
  | operation operation =>
    obtain ⟨⟨code, after⟩, handled, rest⟩ := bind_eq_ok.mp taken
    cases rest
    change after.channelMap.Grown
    cases operation with
    | add fd number memory => exact handlePendingAdd_grown grown small handled
    | remove fd number =>
      rcases EventLoop.handlePendingRemove_cases handled with ⟨rfl, _⟩ | removed
      · exact grown
      · obtain ⟨_, _, _, _, _, _, _, _, _, rfl⟩ := removed
        exact grown.write _ _
    | update fd number =>
      obtain ⟨⟨result, last⟩, updated, same⟩ := bind_eq_ok.mp handled
      cases same
      rcases EventLoop.handlePendingUpdate_cases updated with rfl | changed
      · exact grown
      · obtain ⟨_, _, _, _, _, rfl⟩ := changed
        exact grown
  | setEvents number events =>
    cases taken
    exact grown
  | activate fd revents =>
    have same : next.channelMap = loop.channelMap := by
      simp only [step] at taken
      split at taken
      · exact loop.channelEventActivate_map taken
      · cases taken
        rfl
    exact same ▸ grown
  | callbackReturns =>
    have same : next.channelMap = loop.channelMap := by
      simp only [step, callbackReturns] at taken
      split at taken
      · cases taken
        rfl
      · exact loop.callCallbacks_map taken
    exact same ▸ grown

/-- A step that has its place is a step of the other library. -/
theorem step_mirrors {event : TableEvent} (grown : loop.channelMap.Grown) (small : Small event)
    (placed : loop.Placed event) :
    Mirrors counterpart (loop.step dispatcher event)
      (loop.counterpart.tableStep dispatcher event) := by
  cases event with
  | operation operation => exact operate_mirrors grown small placed
  | setEvents number events => exact .ok rfl
  | activate fd revents =>
    have same : loop.counterpart.running = loop.running := rfl
    simp only [step, ChannelLoop.tableStep, same]
    cases idle : loop.running with
    | none => exact channelEventActivate_mirrors (placed idle)
    | some call => exact .ok rfl
  | callbackReturns =>
    have same : loop.counterpart.running = loop.running := rfl
    simp only [step, ChannelLoop.tableStep, callbackReturns, ChannelLoop.callbackReturns, same]
    cases loop.running with
    | none => exact .ok rfl
    | some call => exact loop.callCallbacks_mirrors call.1 call.2

/-- What has no place, and is no addition without memory, is absent, and the array is read
through or beyond. -/
theorem step_displaced {event : TableEvent} (displaced : ¬ loop.Placed event) :
    (∃ fd number, event = .operation (.add fd number false) ∧
      loop.channelMap.nentries ≤ fd) ∨
    loop.counterpart.Absent event ∧ ∃ stop, loop.step dispatcher event = .error stop := by
  cases event with
  | operation operation =>
    cases operation with
    | add fd number memory =>
      have refused : loop.channelMap.nentries ≤ fd ∧ memory = false := by
        simpa [Placed] using displaced
      obtain ⟨beyond, rfl⟩ := refused
      exact .inl ⟨fd, number, rfl, beyond⟩
    | remove fd number =>
      simp only [Placed, not_forall, not_not] at displaced
      obtain ⟨own, positive, inside, empty⟩ := displaced
      refine .inr ⟨⟨own, positive, (signed_of_nonneg positive).trans empty⟩, .memory, ?_⟩
      obtain ⟨given, known, rfl⟩ := Option.map_eq_some_iff.mp own
      exact congrArg (· >>= _) (EventLoop.handlePendingRemove_empty known positive inside empty)
    | update fd number =>
      simp only [Placed, not_forall] at displaced
      obtain ⟨positive, outside⟩ := displaced
      have beyond := Int.not_lt.mp outside
      have empty := ChannelMap.lookup_of_le (show loop.channelMap.nentries ≤ fd.toNat by omega)
      refine .inr ⟨⟨positive, (signed_of_nonneg positive).trans empty⟩, .memory, ?_⟩
      have stopped := @EventLoop.handlePendingUpdate_beyond _ (Recorded.functions dispatcher)
        loop.toEventLoop fd number positive beyond
      simp only [step, operate, stopped]
      rfl
  | setEvents number events => exact absurd trivial displaced
  | activate fd revents =>
    simp only [Placed, not_forall, not_not] at displaced
    obtain ⟨idle, positive, inside, empty⟩ := displaced
    refine .inr ⟨⟨idle, positive, (signed_of_nonneg positive).trans empty⟩, .emptySlot, ?_⟩
    have entry : fd.toNat < loop.channelMap.nentries := by omega
    simp only [step, idle]
    rw [channelEventActivate, if_neg (Int.not_lt.mpr positive), if_neg (Int.not_le.mpr inside),
      ChannelMap.read_ok entry, empty]
    rfl
  | callbackReturns => exact absurd trivial displaced

/-- A step that has no place is told apart. -/
theorem step_falls {event : TableEvent} (grown : loop.channelMap.Grown) (small : Small event)
    (displaced : ¬ loop.Placed event) :
    ¬ Mirrors counterpart (loop.step dispatcher event)
      (loop.counterpart.tableStep dispatcher event) := by
  intro mirrors
  rcases step_displaced displaced with ⟨fd, number, rfl, beyond⟩ | ⟨absent, stop, stopped⟩
  · have positive : 0 ≤ fd := by omega
    have refused := @EventLoop.handlePendingAdd_refused _ (Recorded.functions dispatcher)
      loop.toEventLoop fd number grown positive small beyond
    have kept : loop.step dispatcher (.operation (.add fd number false)) =
        .ok (loop.note (.handled (.add fd number false) (-1))) := congrArg (· >>= _) refused
    have empty : loop.counterpart.channelMap fd = none :=
      (signed_of_nonneg positive).trans (ChannelMap.lookup_of_le (by omega))
    -- the map takes the descriptor, and its dispatcher is called
    obtain ⟨⟨code, last⟩, handled, rest⟩ := Yolanda.bind_eq_ok.mp (mirrors.of_ok kept)
    change loop.counterpart.handlePendingAdd dispatcher fd number = .ok (code, last) at handled
    rw [ChannelLoop.handlePendingAdd, if_neg (Int.not_lt.mpr positive), empty] at handled
    obtain ⟨added, _, handled⟩ := Yolanda.bind_eq_ok.mp handled
    obtain ⟨⟨result, entered⟩, called, handled⟩ := Yolanda.bind_eq_ok.mp handled
    obtain ⟨data, _, rfl⟩ := ChannelLoop.control_ok.mp called
    cases handled
    have seen := congrArg (fun next => next.happenings.length) (Except.ok.inj rest)
    simp [ChannelLoop.note, note, counterpart] at seen
  · obtain ⟨next, success, _⟩ := mirrors.ok_of (ChannelLoop.tableStep_absent absent)
    rw [stopped] at success
    cases success

end TableLoop

open TableLoop

/-- Both libraries return the same codes, call the dispatcher and callbacks alike and have
the same table after every beginning of the events, and an event on an absent descriptor
returns -1 and does nothing else in both. -/
structure TablesAgree (dispatcher : Dispatcher Data) (loop : TableLoop Data)
    (events : List TableEvent) : Prop where
  mirrored : MirrorsAlong counterpart (step dispatcher) (ChannelLoop.tableStep dispatcher) loop
    events
  refused : ∀ before event, before ++ [event] <+: events → ∀ reached,
    run (step dispatcher) loop before = .ok reached → reached.counterpart.Absent event →
      reached.counterpart.tableStep dispatcher event = .ok (reached.counterpart.refuse event) ∧
        ∃ next, reached.step dispatcher event = .ok next ∧
          next.counterpart = reached.counterpart.refuse event

theorem refused_of_mirrored {dispatcher : Dispatcher Data} {loop : TableLoop Data}
    {events : List TableEvent}
    (mirrored : MirrorsAlong counterpart (step dispatcher) (ChannelLoop.tableStep dispatcher) loop
      events) {before : List TableEvent} {event : TableEvent}
    (front : before ++ [event] <+: events) {reached : TableLoop Data}
    (success : run (step dispatcher) loop before = .ok reached)
    (absent : reached.counterpart.Absent event) :
    ∃ next, reached.step dispatcher event = .ok next ∧
      next.counterpart = reached.counterpart.refuse event := by
  have answer : reached.counterpart.tableStep dispatcher event =
      .ok (reached.counterpart.refuse event) := ChannelLoop.tableStep_absent absent
  have there := (mirrored before ((List.prefix_append _ _).trans front)).of_ok success
  have longer : run (ChannelLoop.tableStep dispatcher) loop.counterpart (before ++ [event]) =
      .ok (reached.counterpart.refuse event) :=
    run_append.mpr ⟨reached.counterpart, there, run_cons_ok.mpr ⟨_, answer, rfl⟩⟩
  obtain ⟨next, both, same⟩ := (mirrored _ front).ok_of longer
  obtain ⟨middle, first, last⟩ := run_append.mp both
  cases success.symm.trans first
  obtain ⟨other, taken, done⟩ := run_cons_ok.mp last
  cases done
  exact ⟨next, taken, same⟩

/-- The libraries agree exactly on the events that find their place in the table of the C
library. -/
theorem tables_agree_iff (dispatcher : Dispatcher Data) {loop : TableLoop Data}
    {events : List TableEvent} (grown : loop.channelMap.Grown)
    (small : ∀ event ∈ events, TableLoop.Small event) :
    TablesAgree dispatcher loop events ↔ Along (step dispatcher) Placed loop events := by
  have allowed : Along (step dispatcher) (fun _ event => TableLoop.Small event) loop events :=
    .of_forall (fun _ => small) loop
  have mirrored : MirrorsAlong counterpart (step dispatcher) (ChannelLoop.tableStep dispatcher)
      loop events ↔ Along (step dispatcher) Placed loop events :=
    mirrorsAlong_iff
      (fun _ _ grown small placed => ⟨step_mirrors grown small placed,
        fun _ taken => step_grown grown small taken⟩)
      (fun _ _ grown small displaced => step_falls grown small displaced) grown allowed
  constructor
  · intro agree
    exact mirrored.mp agree.mirrored
  · intro along
    refine ⟨mirrored.mpr along, ?_⟩
    intro before event front reached success absent
    exact ⟨ChannelLoop.tableStep_absent absent,
      refused_of_mirrored (mirrored.mpr along) front success absent⟩

/-- A loop for one connection, with an epoll instance for its data. -/
def sampleLoop : TableLoop Kernel :=
  .start ⟨fun _ => true, fun _ => none⟩ [App.connectionChannel 0 5]

theorem sampleLoop_grown : sampleLoop.channelMap.Grown := .inl rfl

theorem tables_agree_sample :
    TablesAgree ChannelLoop.epollDispatcher sampleLoop
        [.operation (.add 5 0 true), .activate 5 App.eventRead, .callbackReturns,
          .operation (.remove 5 0)] ↔
      Along (step ChannelLoop.epollDispatcher) Placed sampleLoop
        [.operation (.add 5 0 true), .activate 5 App.eventRead, .callbackReturns,
          .operation (.remove 5 0)] := by
  apply tables_agree_iff ChannelLoop.epollDispatcher sampleLoop_grown
  simp [TableLoop.Small]

/-- The C library reads through the empty entry of a descriptor that was removed, where the
C++ library returns -1. -/
theorem removed_entry_read :
    run (step ChannelLoop.epollDispatcher) sampleLoop
        [.operation (.add 5 0 true), .operation (.remove 5 0), .activate 5 App.eventRead] =
      .error .emptySlot ∧
    (∃ reached, run (ChannelLoop.tableStep ChannelLoop.epollDispatcher) sampleLoop.counterpart
        [.operation (.add 5 0 true), .operation (.remove 5 0), .activate 5 App.eventRead] =
      .ok reached ∧ reached.happenings.getLast? = some (.returned 5 App.eventRead (-1))) ∧
    ¬ TablesAgree ChannelLoop.epollDispatcher sampleLoop
        [.operation (.add 5 0 true), .operation (.remove 5 0), .activate 5 App.eventRead] := by
  have stopped : run (step ChannelLoop.epollDispatcher) sampleLoop
      [.operation (.add 5 0 true), .operation (.remove 5 0), .activate 5 App.eventRead] =
        .error .emptySlot := rfl
  have returned : ∃ reached, run (ChannelLoop.tableStep ChannelLoop.epollDispatcher)
      sampleLoop.counterpart
      [.operation (.add 5 0 true), .operation (.remove 5 0), .activate 5 App.eventRead] =
        .ok reached ∧ reached.happenings.getLast? = some (.returned 5 App.eventRead (-1)) :=
    ⟨_, rfl, rfl⟩
  refine ⟨stopped, returned, ?_⟩
  intro agree
  obtain ⟨reached, success, _⟩ := returned
  obtain ⟨next, taken, _⟩ := (agree.mirrored _ List.prefix_rfl).ok_of success
  rw [stopped] at taken
  cases taken

end Yolanda.Lib
