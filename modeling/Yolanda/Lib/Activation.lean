import Yolanda.Lib.Dispatch

/-! `channel_event_activate` finds the channel of a reported descriptor, unless a read
callback has taken it away before the write activation of the same event. -/

namespace Yolanda.Lib

open App (Channel Kernel)
open Foundation

variable {Data Report Batch : Type}

/-- Not a failure of `channel_event_activate` itself. -/
def Harmless (stop : Stop) : Prop :=
  stop ≠ .emptySlot ∧ stop ≠ .assertion

def Safe (result : Except Stop α) : Prop :=
  ∀ stop, result = .error stop → Harmless stop

namespace Safe

theorem ok (value : α) : Safe (.ok value) := nofun

theorem error {stop : Stop} (slot : stop ≠ .emptySlot) (assertion : stop ≠ .assertion) :
    Safe (.error stop : Except Stop α) := by
  intro other same
  cases same
  exact ⟨slot, assertion⟩

theorem bind {first : Except Stop α} {next : α → Except Stop β} (before : Safe first)
    (behind : ∀ value, first = .ok value → Safe (next value)) : Safe (first >>= next) := by
  cases first with
  | error stop => exact fun other same => before other (by cases same; rfl)
  | ok value => exact behind value rfl

end Safe

/-- What a backend may be relied on for: which descriptors it watches, and which of them a
report still asks for. -/
structure Lawful (backend : Backend Data Report Batch) where
  valid : Data → Prop
  watched : Data → Nat → Prop
  sound : Batch → Prop
  asks : Data → Batch → Nat → Prop
  add : ∀ {data channel result later}, valid data → 0 ≤ channel.fd →
    ¬ watched data channel.fd.toNat → backend.add data channel = .ok (result, later) →
    valid later ∧ ∀ fd, watched later fd → watched data fd ∨ fd = channel.fd.toNat
  del : ∀ {data channel result later}, valid data → 0 ≤ channel.fd →
    backend.del data channel = .ok (result, later) →
    valid later ∧ ∀ fd, watched later fd → watched data fd ∧ fd ≠ channel.fd.toNat
  update : ∀ {data channel result later}, valid data →
    backend.update data channel = .ok (result, later) →
    valid later ∧ ∀ fd, watched later fd → watched data fd
  close : ∀ {data}, valid data → ∀ closed, valid (backend.close data closed) ∧
    ∀ fd, watched (backend.close data closed) fd → watched data fd
  takeDescriptor : ∀ {data}, valid data → ∀ taken, valid (backend.takeDescriptor data taken) ∧
    ∀ fd, watched (backend.takeDescriptor data taken) fd → watched data fd
  stops : ∀ data channel, Safe (backend.add data channel) ∧ Safe (backend.del data channel) ∧
    Safe (backend.update data channel)
  wait : ∀ {data report later batch}, valid data → backend.wait data report = some (later, batch) →
    valid later ∧ sound batch ∧ (∀ fd, watched later fd → watched data fd) ∧
      ∀ fd, asks later batch fd → watched later fd
  next : ∀ {data batch fd readable writable later}, sound batch →
    backend.next data batch = some (.activate fd readable writable, later) →
    0 ≤ fd ∧ asks data batch fd.toNat
  /-- An entry of the report is served once. -/
  rest : ∀ {data batch action later}, sound batch →
    backend.next data batch = some (action, later) → sound later ∧
      ∀ other fd, asks other later fd → watched other fd ∨ asks data batch fd ∧
        ∀ served readable writable, action = .activate served readable writable →
          fd ≠ served.toNat
  keep : ∀ {data other batch fd}, asks other batch fd → watched other fd ∨ asks data batch fd

/-- The descriptor of a channel. -/
def EventLoop.fdOf (loop : EventLoop Data) (channel : Nat) : Option Int :=
  loop.channels[channel]?.map Channel.fd

/-- Whether the entry of a descriptor is taken behind an element of the pending list. -/
def heldAfter (fds : Nat → Option Int) (fd : Nat) (held : Bool) : Element → Bool
  | .add channel _ => held || fds channel = some (fd : Int)
  | .remove channel => held && fds channel ≠ some (fd : Int)
  | .update _ => held

/-- Whether the entry of a descriptor is taken behind an effect of the callback of its
channel. -/
def keptAfter (fds : Nat → Option Int) (fd : Nat) (held : Bool) : Effect → Bool
  | .add channel _ => held || fds channel = some (fd : Int)
  | .update _ _ => held
  | .remove => false

/-- The read callback of a channel, where there is one, leaves its entry. -/
def ReadKeeps (loop : EventLoop Data) (fd : Nat) (reads : List Effect) : Prop :=
  ∀ number channel, loop.channelMap.lookup fd = some number →
    loop.channels[number]? = some channel → channel.eventReadCallback.isSome →
    reads.foldl (keptAfter loop.fdOf fd) true = true

/-- An event reports a descriptor readable and writable only if the read callback leaves the
descriptor with an entry. -/
def KeepsEntry (backend : Backend Data Report Batch) (running : Running Data Batch) :
    LoopEvent Data Report → Prop
  | .serve reads _ => ∀ batch fd later, running.batch = some batch →
    backend.next running.dispatch.dispatcherData batch = some (.activate fd true true, later) →
    ReadKeeps running.dispatch.toEventLoop fd.toNat reads
  | _ => True

/-- The loop `event_loop_init` makes, with the channels the process will ever have. -/
def Running.start (data : Data) (channels : List Channel) : Running Data Batch :=
  { dispatch :=
      { dispatcherData := data
        channels
        channelMap := ⟨[]⟩
        pending := []
        activated := fun _ => []
        closed := [] }
    batch := none }

variable {backend : Backend Data Report Batch} (lawful : Lawful backend)

/-- What the dispatcher watches has an entry, and every entry is a channel of its
descriptor. -/
structure Kept (loop : EventLoop Data) : Prop where
  valid : lawful.valid loop.dispatcherData
  entered : ∀ fd, lawful.watched loop.dispatcherData fd → loop.channelMap.lookup fd ≠ none
  known : ∀ fd number, loop.channelMap.lookup fd = some number →
    ∃ channel, loop.channels[number]? = some channel ∧ channel.fd = fd

/-- What the elements of a pending list come to. -/
structure Outcome (loop next : EventLoop Data) (elements : List Element) : Prop where
  kept : Kept lawful next
  fds : next.fdOf = loop.fdOf
  larger : loop.channelMap.nentries ≤ next.channelMap.nentries
  held : ∀ fd < loop.channelMap.nentries, (next.channelMap.lookup fd).isSome =
    elements.foldl (heldAfter loop.fdOf fd) (loop.channelMap.lookup fd).isSome

variable {lawful}

namespace Outcome

variable {loop middle next : EventLoop Data} {first second : List Element}

theorem refl (kept : Kept lawful loop) : Outcome lawful loop loop [] :=
  ⟨kept, rfl, Nat.le_refl _, fun _ _ => rfl⟩

theorem trans (before : Outcome lawful loop middle first)
    (behind : Outcome lawful middle next second) : Outcome lawful loop next (first ++ second) := by
  refine ⟨behind.kept, behind.fds.trans before.fds, before.larger.trans behind.larger, ?_⟩
  intro fd inside
  rw [behind.held fd (by have := before.larger; omega), before.held fd inside, before.fds,
    List.foldl_append]

end Outcome

variable {loop next : EventLoop Data}

theorem Kept.fdOf (kept : Kept lawful loop) {fd number : Nat}
    (entry : loop.channelMap.lookup fd = some number) : loop.fdOf number = some (fd : Int) := by
  obtain ⟨channel, found, place⟩ := kept.known fd number entry
  rw [EventLoop.fdOf, found, Option.map_some, place]

theorem lookup_fd {map : ChannelMap} {fd : Int} {asked : Nat} (positive : 0 ≤ fd)
    (entry : Option Nat) : (Function.update map.lookup fd.toNat entry) asked =
      if fd = asked then entry else map.lookup asked := by
  by_cases same : fd = asked
  · subst same
    rw [if_pos rfl, Int.toNat_natCast, Function.update_self]
  · rw [if_neg same, Function.update_of_ne (by omega)]

private theorem add_outcome (kept : Kept lawful loop) {channel : Nat} {memory : Bool}
    {given : Channel} (found : loop.channels[channel]? = some given) {result : Int}
    (taken : loop.handlePendingAdd backend.toEventDispatcher memory given.fd channel =
      .ok (result, next)) : Outcome lawful loop next [.add channel memory] := by
  have fds : loop.fdOf channel = some given.fd := by rw [EventLoop.fdOf, found, Option.map_some]
  rcases EventLoop.handlePendingAdd_cases taken with ⟨rfl, beyond⟩ |
    ⟨map, positive, same, larger, inside, ⟨registered, rfl⟩ | ⟨fresh, added, code, data, found',
      made, rfl⟩⟩
  · refine ⟨kept, rfl, Nat.le_refl _, ?_⟩
    intro fd inside
    have other : given.fd ≠ fd := by omega
    simp [heldAfter, fds, other]
  · refine ⟨⟨kept.valid, ?_, ?_⟩, rfl, larger, ?_⟩
    · simpa only [same] using kept.entered
    · simpa only [same] using kept.known
    · intro fd _
      by_cases here : given.fd = fd
      · have entry : (loop.channelMap.lookup fd).isSome := by
          rw [here, Int.toNat_natCast] at registered
          exact Option.isSome_iff_ne_none.mpr registered
        simp [heldAfter, same, entry]
      · simp [heldAfter, same, fds, here]
  · cases found.symm.trans found'
    have unwatched : ¬ lawful.watched loop.dispatcherData given.fd.toNat :=
      fun watched => kept.entered _ watched fresh
    obtain ⟨valid, watches⟩ := lawful.add kept.valid positive unwatched made
    have changed := ChannelMap.lookup_write (show given.fd.toNat < map.nentries by omega)
      (some channel)
    rw [same] at changed
    refine ⟨⟨valid, ?_, ?_⟩, rfl, ?_, ?_⟩
    · intro fd watched
      simp only [changed, lookup_fd positive]
      split
      · exact nofun
      · rcases watches fd watched with before | here
        · exact kept.entered fd before
        · omega
    · intro fd number entry
      simp only [changed, lookup_fd positive] at entry
      split at entry
      case isTrue here =>
        cases entry
        exact ⟨given, found, here⟩
      case isFalse => exact kept.known fd number entry
    · simpa only [ChannelMap.nentries_write] using larger
    · intro fd _
      simp only [changed, lookup_fd positive]
      by_cases here : given.fd = fd
      · simp [heldAfter, fds, here]
      · simp [heldAfter, fds, here]

private theorem remove_outcome (kept : Kept lawful loop) {channel : Nat} {given : Channel}
    (found : loop.channels[channel]? = some given) {result : Int}
    (taken : loop.handlePendingRemove backend.toEventDispatcher given.fd channel =
      .ok (result, next)) : Outcome lawful loop next [.remove channel] := by
  have fds : loop.fdOf channel = some given.fd := by rw [EventLoop.fdOf, found, Option.map_some]
  rcases EventLoop.handlePendingRemove_cases taken with ⟨rfl, beyond⟩ |
    ⟨number, mapped, code, data, positive, inside, entry, known, made, rfl⟩
  · refine ⟨kept, rfl, Nat.le_refl _, ?_⟩
    intro fd inside
    have other : given.fd ≠ fd := by omega
    simp [heldAfter, fds, other]
  · have place : mapped.fd = given.fd := by
      obtain ⟨channel', found', place⟩ := kept.known _ number entry
      cases known.symm.trans found'
      omega
    obtain ⟨valid, watches⟩ := lawful.del kept.valid (by omega) made
    have changed := ChannelMap.lookup_write
      (show given.fd.toNat < loop.channelMap.nentries by omega) none
    refine ⟨⟨valid, ?_, ?_⟩, rfl, ?_, ?_⟩
    · intro fd watched
      obtain ⟨before, other⟩ := watches fd watched
      simp only [changed, lookup_fd positive]
      rw [if_neg (by omega)]
      exact kept.entered fd before
    · intro fd number entry
      simp only [changed, lookup_fd positive] at entry
      split at entry
      · cases entry
      · exact kept.known fd number entry
    · simp only [ChannelMap.nentries_write, Nat.le_refl]
    · intro fd _
      simp only [changed, lookup_fd positive]
      by_cases here : given.fd = fd
      · simp [heldAfter, fds, here]
      · simp [heldAfter, fds, here]

private theorem update_outcome (kept : Kept lawful loop) {channel : Nat} {fd : Int}
    {result : Option Int} (taken : loop.handlePendingUpdate backend.toEventDispatcher fd channel =
      .ok (result, next)) : Outcome lawful loop next [.update channel] := by
  rcases EventLoop.handlePendingUpdate_cases taken with rfl | ⟨updated, code, data, _, made, rfl⟩
  · exact ⟨kept, rfl, Nat.le_refl _, fun _ _ => rfl⟩
  · obtain ⟨valid, watches⟩ := lawful.update kept.valid made
    exact ⟨⟨valid, fun fd watched => kept.entered fd (watches fd watched), kept.known⟩, rfl,
      Nat.le_refl _, fun _ _ => rfl⟩

theorem handlePending_outcome (kept : Kept lawful loop) {element : Element}
    (taken : Dispatch.handlePending backend.toEventDispatcher loop element = .ok next) :
    Outcome lawful loop next [element] := by
  cases element with
  | add channel memory =>
    obtain ⟨given, found, taken⟩ := bind_eq_ok.mp taken
    obtain ⟨⟨result, later⟩, handled, same⟩ := bind_eq_ok.mp taken
    cases same
    exact add_outcome kept (EventLoop.channelAt_eq_ok.mp found) handled
  | remove channel =>
    obtain ⟨given, found, taken⟩ := bind_eq_ok.mp taken
    obtain ⟨⟨result, later⟩, handled, same⟩ := bind_eq_ok.mp taken
    cases same
    exact remove_outcome kept (EventLoop.channelAt_eq_ok.mp found) handled
  | update channel =>
    obtain ⟨given, found, taken⟩ := bind_eq_ok.mp taken
    obtain ⟨⟨result, later⟩, handled, same⟩ := bind_eq_ok.mp taken
    cases same
    exact update_outcome kept handled

theorem handleAll_outcome (kept : Kept lawful loop) {elements : List Element}
    (taken : Dispatch.handleAll backend.toEventDispatcher loop elements = .ok next) :
    Outcome lawful loop next elements := by
  induction elements generalizing loop with
  | nil =>
    cases taken
    exact .refl kept
  | cons element elements ih =>
    obtain ⟨middle, handled, rest⟩ := bind_eq_ok.mp taken
    have first := handlePending_outcome kept handled
    exact first.trans (ih first.kept rest)

namespace Safe

theorem doubleUntil (slot doublings nentries : Nat) :
    Safe (ChannelMap.doubleUntil slot doublings nentries) := by
  induction doublings generalizing nentries with
  | zero => exact error nofun nofun
  | succ doublings ih =>
    unfold ChannelMap.doubleUntil
    split
    · split
      · exact ih _
      · exact error nofun nofun
    · exact ok _

theorem makeSpace (map : ChannelMap) (fd : Nat) (memory : Bool) : Safe (map.makeSpace fd memory) := by
  unfold ChannelMap.makeSpace
  split
  · apply bind (doubleUntil _ _ _)
    intro nentries _
    split
    · split <;> exact ok _
    · exact error nofun nofun
  · exact ok _

theorem read (map : ChannelMap) (fd : Nat) : Safe (map.read fd) := by
  unfold ChannelMap.read
  split
  · exact ok _
  · exact error nofun nofun

theorem channelAt (loop : EventLoop Data) (channel : Nat) : Safe (loop.channelAt channel) := by
  unfold EventLoop.channelAt
  split
  · exact ok _
  · exact error nofun nofun

variable (lawful)
include lawful

theorem handlePendingAdd (loop : EventLoop Data) (memory : Bool) (fd : Int) (channel : Nat) :
    Safe (loop.handlePendingAdd backend.toEventDispatcher memory fd channel) := by
  unfold EventLoop.handlePendingAdd
  split
  · exact ok _
  · apply bind
    · split
      · exact makeSpace _ _ _
      · exact ok _
    · intro space _
      cases space with
      | none => exact ok _
      | some map =>
        apply bind (read _ _)
        intro entry _
        cases entry with
        | some number => exact ok _
        | none =>
          apply bind (channelAt _ _)
          intro added _
          exact bind (lawful.stops _ added).1 fun _ _ => ok _

/-- The assertion of a removal compares the descriptor of the channel with itself. -/
theorem handlePendingRemove (loop : EventLoop Data) {channel : Nat} {given : Channel}
    (found : loop.channelAt channel = .ok given) :
    Safe (loop.handlePendingRemove backend.toEventDispatcher given.fd channel) := by
  unfold EventLoop.handlePendingRemove
  rw [found]
  apply bind (ok given)
  rintro _ ⟨⟩
  rw [if_neg (not_not_intro rfl)]
  split
  · exact ok _
  · split
    · exact ok _
    · apply bind (read _ _)
      intro entry _
      cases entry with
      | none => exact error nofun nofun
      | some number =>
        apply bind (channelAt _ _)
        intro mapped _
        exact bind (lawful.stops _ mapped).2.1 fun _ _ => ok _

theorem handlePendingUpdate (loop : EventLoop Data) (fd : Int) (channel : Nat) :
    Safe (loop.handlePendingUpdate backend.toEventDispatcher fd channel) := by
  unfold EventLoop.handlePendingUpdate
  split
  · exact ok _
  · apply bind (read _ _)
    intro entry _
    cases entry with
    | none => exact ok _
    | some number =>
      apply bind (channelAt _ _)
      intro updated _
      exact bind (lawful.stops _ updated).2.2 fun _ _ => ok _

theorem handlePending (loop : EventLoop Data) (element : Element) :
    Safe (Dispatch.handlePending backend.toEventDispatcher loop element) := by
  cases element with
  | add channel memory =>
    apply bind (channelAt _ _)
    intro added _
    exact bind (handlePendingAdd lawful _ _ _ _) fun _ _ => ok _
  | remove channel =>
    apply bind (channelAt _ _)
    intro removed found
    exact bind (handlePendingRemove lawful loop found) fun _ _ => ok _
  | update channel =>
    apply bind (channelAt _ _)
    intro updated _
    exact bind (handlePendingUpdate lawful _ _ _) fun _ _ => ok _

theorem handleAll (loop : EventLoop Data) (elements : List Element) :
    Safe (Dispatch.handleAll backend.toEventDispatcher loop elements) := by
  induction elements generalizing loop with
  | nil => exact ok _
  | cons element elements ih => exact bind (handlePending lawful _ _) fun next _ => ih next

theorem handlePendingChannel (dispatch : Dispatch Data) :
    Safe (dispatch.handlePendingChannel backend.toEventDispatcher) :=
  bind (handleAll lawful _ _) fun _ _ => ok _

theorem perform (own : Nat) (dispatch : Dispatch Data) (effect : Effect) :
    Safe (dispatch.perform backend.toEventDispatcher own effect) := by
  cases effect with
  | add channel memory => exact handlePendingChannel lawful _
  | update channel events => exact handlePendingChannel lawful _
  | remove => exact handlePendingChannel lawful _

theorem performAll (own : Nat) (dispatch : Dispatch Data) (effects : List Effect) :
    Safe (dispatch.performAll backend.toEventDispatcher own effects) := by
  induction effects generalizing dispatch with
  | nil => exact ok _
  | cons effect effects ih => exact bind (perform lawful _ _ _) fun next _ => ih next

end Safe

/-- No removal waits in the list. -/
def Plain (pending : List Element) : Prop :=
  ∀ channel, .remove channel ∉ pending

theorem Plain.concat {pending : List Element} {element : Element} (plain : Plain pending)
    (other : ∀ channel, element ≠ .remove channel) : Plain (pending ++ [element]) := by
  intro channel member
  rcases List.mem_append.mp member with before | last
  · exact plain channel before
  · exact other channel (List.mem_singleton.mp last).symm

/-- The element an effect queues. -/
def Effect.element (own : Nat) : Effect → Element
  | .add channel memory => .add channel memory
  | .update channel _ => .update channel
  | .remove => .remove own

variable {dispatch later : Dispatch Data} {own : Nat}

theorem handlePendingChannel_outcome (kept : Kept lawful dispatch.toEventLoop)
    (taken : dispatch.handlePendingChannel backend.toEventDispatcher = .ok later) :
    Outcome lawful dispatch.toEventLoop later.toEventLoop dispatch.pending ∧ later.pending = [] := by
  obtain ⟨loop, handled, same⟩ := bind_eq_ok.mp taken
  cases same
  exact ⟨handleAll_outcome kept handled, rfl⟩

theorem doChannelEvent_outcome (kept : Kept lawful dispatch.toEventLoop) {element : Element}
    (taken : dispatch.doChannelEvent backend.toEventDispatcher element = .ok later) :
    Outcome lawful dispatch.toEventLoop later.toEventLoop (dispatch.pending ++ [element]) ∧
      later.pending = [] := by
  have queued : Kept lawful
      ({ dispatch with pending := dispatch.pending ++ [element] } : Dispatch Data).toEventLoop := kept
  exact handlePendingChannel_outcome queued taken

theorem setEvents_fdOf (loop : EventLoop Data) (number : Nat) (events : BitVec 32) :
    (loop.setEvents number events).fdOf = loop.fdOf := by
  funext other
  rw [EventLoop.fdOf, EventLoop.getElem?_setEvents, EventLoop.fdOf, Option.map_map]
  congr 1
  funext channel
  by_cases same : number = other
  · simp only [Function.comp_apply, if_pos same]
  · simp only [Function.comp_apply, if_neg same]

theorem setEvents_outcome (kept : Kept lawful loop) (number : Nat) (events : BitVec 32) :
    Outcome lawful loop (loop.setEvents number events) [] := by
  refine ⟨⟨kept.valid, kept.entered, ?_⟩, setEvents_fdOf loop number events, Nat.le_refl _,
    fun _ _ => rfl⟩
  intro fd other entry
  have place := kept.fdOf entry
  rw [← setEvents_fdOf loop number events] at place
  obtain ⟨channel, found, same⟩ := Option.map_eq_some_iff.mp place
  exact ⟨channel, found, same⟩

theorem perform_outcome (kept : Kept lawful dispatch.toEventLoop) {effect : Effect}
    (taken : dispatch.perform backend.toEventDispatcher own effect = .ok later) :
    Outcome lawful dispatch.toEventLoop later.toEventLoop
      (dispatch.pending ++ [effect.element own]) ∧ later.pending = [] := by
  cases effect with
  | add channel memory => exact doChannelEvent_outcome kept taken
  | update channel events =>
    have changed := setEvents_outcome kept channel events
    have again : Kept lawful ({ dispatch with
        toEventLoop := dispatch.setEvents channel events } : Dispatch Data).toEventLoop := changed.kept
    obtain ⟨outcome, empty⟩ := doChannelEvent_outcome again taken
    exact ⟨changed.trans outcome, empty⟩
  | remove => exact doChannelEvent_outcome kept taken

/-- The first effect handles what is pending, and the others find the list empty. -/
theorem performAll_outcome (kept : Kept lawful dispatch.toEventLoop) {effects : List Effect}
    (taken : dispatch.performAll backend.toEventDispatcher own effects = .ok later) :
    effects = [] ∧ later = dispatch ∨
      Outcome lawful dispatch.toEventLoop later.toEventLoop
        (dispatch.pending ++ effects.map (Effect.element own)) ∧ later.pending = [] := by
  induction effects generalizing dispatch with
  | nil =>
    cases taken
    exact .inl ⟨rfl, rfl⟩
  | cons effect effects ih =>
    obtain ⟨middle, performed, rest⟩ := bind_eq_ok.mp taken
    obtain ⟨first, empty⟩ := perform_outcome kept performed
    right
    rcases ih first.kept rest with ⟨rfl, rfl⟩ | ⟨second, ends⟩
    · exact ⟨first, empty⟩
    · rw [empty, List.nil_append] at second
      have whole := first.trans second
      rw [List.append_assoc] at whole
      exact ⟨whole, ends⟩

theorem foldl_plain {fds : Nat → Option Int} {fd : Nat} {pending : List Element}
    (plain : Plain pending) : pending.foldl (heldAfter fds fd) true = true := by
  induction pending with
  | nil => rfl
  | cons element pending ih =>
    have rest : Plain pending := fun channel member =>
      plain channel (List.mem_cons_of_mem element member)
    cases element with
    | add channel memory => simpa [heldAfter] using ih rest
    | remove channel => exact absurd (List.mem_cons_self ..) (plain channel)
    | update channel => simpa [heldAfter] using ih rest

/-- The effects of a callback on the entry of its own channel. -/
theorem foldl_own {fds : Nat → Option Int} {fd : Nat} (place : fds own = some (fd : Int))
    (effects : List Effect) (held : Bool) :
    (effects.map (Effect.element own)).foldl (heldAfter fds fd) held =
      effects.foldl (keptAfter fds fd) held := by
  induction effects generalizing held with
  | nil => rfl
  | cons effect effects ih =>
    rw [List.map_cons, List.foldl_cons, List.foldl_cons, ih]
    congr 1
    cases effect with
    | add channel memory => rfl
    | update channel events => rfl
    | remove => simp [Effect.element, heldAfter, keptAfter, place]

/-- The entries of other channels stay. -/
theorem foldl_other {fds : Nat → Option Int} {fd other : Nat} (place : fds own = some (fd : Int))
    (differ : other ≠ fd) (effects : List Effect) :
    (effects.map (Effect.element own)).foldl (heldAfter fds other) true = true := by
  induction effects with
  | nil => rfl
  | cons effect effects ih =>
    cases effect with
    | add channel memory => simpa [Effect.element, heldAfter] using ih
    | update channel events => simpa [Effect.element, heldAfter] using ih
    | remove =>
      have apart : (fd : Int) ≠ other := by omega
      simpa [Effect.element, heldAfter, place, apart] using ih

/-- What an activation does to a loop: it leaves every entry but that of its descriptor. -/
structure Activated (lawful : Lawful backend) (dispatch later : Dispatch Data) (fd : Nat) :
    Prop where
  kept : Kept lawful later.toEventLoop
  plain : Plain later.pending
  fds : later.fdOf = dispatch.fdOf
  larger : dispatch.channelMap.nentries ≤ later.channelMap.nentries
  others : ∀ other, other ≠ fd → dispatch.channelMap.lookup other ≠ none →
    later.channelMap.lookup other ≠ none

theorem Activated.refl (kept : Kept lawful dispatch.toEventLoop) (plain : Plain dispatch.pending)
    (fd : Nat) : Activated lawful dispatch dispatch fd :=
  ⟨kept, plain, rfl, Nat.le_refl _, fun _ _ held => held⟩

theorem Activated.trans {middle : Dispatch Data} {fd : Nat}
    (first : Activated lawful dispatch middle fd) (second : Activated lawful middle later fd) :
    Activated lawful dispatch later fd :=
  ⟨second.kept, second.plain, second.fds.trans first.fds, first.larger.trans second.larger,
    fun other differ held => second.others other differ (first.others other differ held)⟩

theorem performAll_activated (kept : Kept lawful dispatch.toEventLoop)
    (plain : Plain dispatch.pending) {effects : List Effect} {fd : Nat}
    (entry : dispatch.channelMap.lookup fd = some own)
    (taken : dispatch.performAll backend.toEventDispatcher own effects = .ok later) :
    Activated lawful dispatch later fd ∧ (later.channelMap.lookup fd).isSome =
      effects.foldl (keptAfter dispatch.fdOf fd) true := by
  have place := kept.fdOf entry
  have inside := ChannelMap.lt_of_lookup (by rw [entry]; exact nofun)
  rcases performAll_outcome kept taken with ⟨rfl, rfl⟩ | ⟨outcome, empty⟩
  · exact ⟨.refl kept plain fd, by rw [entry]; rfl⟩
  · refine ⟨⟨outcome.kept, ?_, outcome.fds, outcome.larger, ?_⟩, ?_⟩
    · rw [empty]
      exact nofun
    · intro other differ held
      have within := ChannelMap.lt_of_lookup held
      apply Option.isSome_iff_ne_none.mp
      rw [outcome.held other within, Option.isSome_iff_ne_none.mpr held, List.foldl_append,
        foldl_plain plain]
      exact foldl_other place differ effects
    · rw [outcome.held fd inside, entry, Option.isSome_some, List.foldl_append, foldl_plain plain,
        foldl_own place]

variable {reads writes : List Effect} {fd : Int}

/-- The call of an activation in the log changes nothing else. -/
theorem Activated.record {revents : BitVec 32} {served : Nat}
    (kept : Kept lawful dispatch.toEventLoop) (plain : Plain dispatch.pending) :
    Activated lawful dispatch (dispatch.record fd revents) served :=
  ⟨kept, plain, rfl, Nat.le_refl _, fun _ _ held => held⟩

theorem performed_record {revents : BitVec 32} {effects : List Effect} {served : Nat}
    (kept : Kept lawful dispatch.toEventLoop) (plain : Plain dispatch.pending)
    (entry : dispatch.channelMap.lookup served = some own)
    (taken : (dispatch.record fd revents).performAll backend.toEventDispatcher own effects =
      .ok later) :
    Activated lawful dispatch later served ∧ (later.channelMap.lookup served).isSome =
      effects.foldl (keptAfter dispatch.fdOf served) true := by
  have recorded : Activated lawful dispatch (dispatch.record fd revents) served :=
    .record kept plain
  obtain ⟨activated, keeps⟩ := performAll_activated recorded.kept recorded.plain entry taken
  exact ⟨recorded.trans activated, keeps⟩

theorem Kept.entry (kept : Kept lawful loop) (positive : 0 ≤ fd)
    (held : loop.channelMap.lookup fd.toNat ≠ none) : ∃ own channel,
      loop.channelMap.lookup fd.toNat = some own ∧ loop.channels[own]? = some channel ∧
        channel.fd = fd := by
  obtain ⟨own, entry⟩ := Option.ne_none_iff_exists'.mp held
  obtain ⟨channel, found, place⟩ := kept.known _ own entry
  exact ⟨own, channel, entry, found, place.trans (Int.toNat_of_nonneg positive)⟩

theorem read_activated (kept : Kept lawful dispatch.toEventLoop) (plain : Plain dispatch.pending)
    (positive : 0 ≤ fd) (held : dispatch.channelMap.lookup fd.toNat ≠ none)
    (taken : dispatch.channelEventActivate backend.toEventDispatcher reads writes fd
      App.eventRead = .ok later) :
    Activated lawful dispatch later fd.toNat ∧
      (ReadKeeps dispatch.toEventLoop fd.toNat reads ↔
        later.channelMap.lookup fd.toNat ≠ none) := by
  obtain ⟨own, channel, entry, found, place⟩ := kept.entry positive held
  rw [Dispatch.activate_read positive entry found place] at taken
  split at taken
  case isTrue called =>
    obtain ⟨activated, keeps⟩ := performed_record kept plain entry taken
    refine ⟨activated, ?_⟩
    rw [← Option.isSome_iff_ne_none, keeps]
    constructor
    · intro all
      exact all own channel entry found called
    · intro holds other second entry' found' _
      exact holds
  case isFalse uncalled =>
    cases taken
    refine ⟨.record kept plain, fun _ => held, ?_⟩
    intro _ other second entry' found' called
    cases entry.symm.trans entry'
    cases found.symm.trans found'
    exact absurd called uncalled

theorem write_activated (kept : Kept lawful dispatch.toEventLoop) (plain : Plain dispatch.pending)
    (positive : 0 ≤ fd) (held : dispatch.channelMap.lookup fd.toNat ≠ none)
    (taken : dispatch.channelEventActivate backend.toEventDispatcher reads writes fd
      App.eventWrite = .ok later) : Activated lawful dispatch later fd.toNat := by
  obtain ⟨own, channel, entry, found, place⟩ := kept.entry positive held
  rw [Dispatch.activate_write positive entry found place] at taken
  split at taken
  · exact (performed_record kept plain entry taken).1
  · cases taken
    exact .record kept plain

variable (lawful) in
theorem read_safe (kept : Kept lawful dispatch.toEventLoop) (positive : 0 ≤ fd)
    (held : dispatch.channelMap.lookup fd.toNat ≠ none) :
    Safe (dispatch.channelEventActivate backend.toEventDispatcher reads writes fd
      App.eventRead) := by
  obtain ⟨own, channel, entry, found, place⟩ := kept.entry positive held
  rw [Dispatch.activate_read positive entry found place]
  split
  · exact Safe.performAll lawful _ _ _
  · exact Safe.ok _

variable (lawful) in
theorem write_safe (kept : Kept lawful dispatch.toEventLoop) (positive : 0 ≤ fd)
    (held : dispatch.channelMap.lookup fd.toNat ≠ none) :
    Safe (dispatch.channelEventActivate backend.toEventDispatcher reads writes fd
      App.eventWrite) := by
  obtain ⟨own, channel, entry, found, place⟩ := kept.entry positive held
  rw [Dispatch.activate_write positive entry found place]
  split
  · exact Safe.performAll lawful _ _ _
  · exact Safe.ok _

/-- Both activations of an event find the entry, unless the read callback takes it away. -/
theorem activateReady_safe (kept : Kept lawful dispatch.toEventLoop) (plain : Plain dispatch.pending)
    (positive : 0 ≤ fd) (held : dispatch.channelMap.lookup fd.toNat ≠ none)
    {readable writable : Bool} (keeps : readable = true → writable = true →
      ReadKeeps dispatch.toEventLoop fd.toNat reads) :
    Safe (dispatch.activateReady backend.toEventDispatcher reads writes fd readable writable) := by
  unfold Dispatch.activateReady
  cases readable with
  | false =>
    cases writable with
    | false => exact Safe.ok _
    | true => exact write_safe lawful kept positive held
  | true =>
    apply Safe.bind (read_safe lawful kept positive held)
    intro middle taken
    cases writable with
    | false => exact Safe.ok _
    | true =>
      obtain ⟨activated, entry⟩ := read_activated kept plain positive held taken
      exact write_safe lawful activated.kept positive (entry.mp (keeps rfl rfl))

/-- Both activations have returned only if the read callback has left the entry. -/
theorem activateReady_activated (kept : Kept lawful dispatch.toEventLoop)
    (plain : Plain dispatch.pending) (positive : 0 ≤ fd)
    (held : dispatch.channelMap.lookup fd.toNat ≠ none) {readable writable : Bool}
    (taken : dispatch.activateReady backend.toEventDispatcher reads writes fd readable writable =
      .ok later) :
    Activated lawful dispatch later fd.toNat ∧ (readable = true → writable = true →
      ReadKeeps dispatch.toEventLoop fd.toNat reads) := by
  cases readable with
  | false =>
    cases writable with
    | false =>
      cases taken
      exact ⟨.refl kept plain _, nofun⟩
    | true => exact ⟨write_activated kept plain positive held taken, nofun⟩
  | true =>
    obtain ⟨middle, first, taken⟩ := bind_eq_ok.mp taken
    obtain ⟨activated, entry⟩ := read_activated kept plain positive held first
    cases writable with
    | false =>
      cases taken
      exact ⟨activated, nofun⟩
    | true =>
      have remains : middle.channelMap.lookup fd.toNat ≠ none := by
        intro empty
        have inside := ChannelMap.lt_of_lookup held
        have larger := activated.larger
        rw [if_pos rfl, Dispatch.activate_empty positive (by omega) empty] at taken
        cases taken
      refine ⟨activated.trans (write_activated activated.kept activated.plain positive remains
        taken), fun _ _ => entry.mpr remains⟩

/-- Every descriptor the report still asks for has an entry. -/
structure Following (lawful : Lawful backend) (running : Running Data Batch) : Prop where
  kept : Kept lawful running.dispatch.toEventLoop
  plain : Plain running.dispatch.pending
  sound : ∀ batch, running.batch = some batch → lawful.sound batch
  reported : ∀ batch, running.batch = some batch → ∀ fd,
    lawful.asks running.dispatch.dispatcherData batch fd →
    running.dispatch.channelMap.lookup fd ≠ none

namespace Following

variable {running : Running Data Batch} {batch : Batch}

theorem asked (following : Following lawful running) (left : running.batch = some batch)
    {readable writable : Bool} {rest : Batch}
    (comes : backend.next running.dispatch.dispatcherData batch =
      some (.activate fd readable writable, rest)) :
    0 ≤ fd ∧ running.dispatch.channelMap.lookup fd.toNat ≠ none := by
  obtain ⟨positive, asks⟩ := lawful.next (following.sound batch left) comes
  exact ⟨positive, following.reported batch left _ asks⟩

/-- New data of the dispatcher, with no new descriptors to watch. -/
theorem change (following : Following lawful running) {data : Data}
    (valid : lawful.valid data)
    (fewer : ∀ fd, lawful.watched data fd → lawful.watched running.dispatch.dispatcherData fd) :
    Following lawful { running with dispatch := { running.dispatch with
        dispatcherData := data } } := by
  have entered (fd) (watched : lawful.watched data fd) :=
    following.kept.entered fd (fewer fd watched)
  refine ⟨⟨valid, entered, following.kept.known⟩, following.plain, following.sound, ?_⟩
  intro batch left fd asks
  rcases lawful.keep asks with watched | before
  · exact entered fd watched
  · exact following.reported batch left fd before

/-- An entry of the report that activates nothing. -/
theorem pass (following : Following lawful running) (left : running.batch = some batch)
    {action : Action} {rest : Batch}
    (comes : backend.next running.dispatch.dispatcherData batch = some (action, rest)) :
    Following lawful { running with batch := some rest } := by
  obtain ⟨sound, asked⟩ := lawful.rest (following.sound batch left) comes
  refine ⟨following.kept, following.plain, ?_, ?_⟩
  · rintro _ ⟨⟩
    exact sound
  · rintro _ ⟨⟩ fd asks
    rcases asked _ fd asks with watched | ⟨before, _⟩
    · exact following.kept.entered fd watched
    · exact following.reported batch left fd before

theorem activate (following : Following lawful running) (left : running.batch = some batch)
    {readable writable : Bool} {rest : Batch}
    (comes : backend.next running.dispatch.dispatcherData batch =
      some (.activate fd readable writable, rest))
    (activated : Activated lawful running.dispatch later fd.toNat) :
    Following lawful ⟨later, some rest⟩ := by
  obtain ⟨sound, asked⟩ := lawful.rest (following.sound batch left) comes
  refine ⟨activated.kept, activated.plain, ?_, ?_⟩
  · rintro _ ⟨⟩
    exact sound
  · rintro _ ⟨⟩ other asks
    rcases asked _ other asks with watched | ⟨before, differ⟩
    · exact activated.kept.entered other watched
    · exact activated.others other (differ fd readable writable rfl)
        (following.reported batch left other before)

/-- Of an entry of the report: the loop behind it, and what its success shows. -/
theorem serve (following : Following lawful running) (left : running.batch = some batch)
    {rest : Batch}
    (taken : Running.serve backend reads writes running.dispatch batch = .ok (later, rest)) :
    Following lawful ⟨later, some rest⟩ ∧ ∀ fd following, backend.next
      running.dispatch.dispatcherData batch = some (.activate fd true true, following) →
      ReadKeeps running.dispatch.toEventLoop fd.toNat reads := by
  unfold Running.serve at taken
  cases comes : backend.next running.dispatch.dispatcherData batch with
  | none =>
    rw [comes] at taken
    cases taken
    exact ⟨left ▸ following, nofun⟩
  | some entry =>
    obtain ⟨action, rest⟩ := entry
    rw [comes] at taken
    cases action with
    | skip =>
      cases taken
      exact ⟨following.pass left comes, nofun⟩
    | close fd =>
      cases taken
      obtain ⟨valid, fewer⟩ := lawful.close following.kept.valid fd
      have changed := (following.pass left comes).change valid fewer
      exact ⟨⟨changed.kept, changed.plain, changed.sound, changed.reported⟩, nofun⟩
    | activate fd readable writable =>
      obtain ⟨dispatch, activates, same⟩ := bind_eq_ok.mp taken
      cases same
      obtain ⟨positive, held⟩ := following.asked left comes
      obtain ⟨activated, keeps⟩ := activateReady_activated following.kept following.plain positive
        held activates
      refine ⟨following.activate left comes activated, ?_⟩
      rintro _ _ ⟨⟩
      exact keeps rfl rfl

theorem step {event : LoopEvent Data Report} {next : Running Data Batch}
    (following : Following lawful running) (taken : running.step backend event = .ok next) :
    Following lawful next ∧ KeepsEntry backend running event := by
  cases event with
  | wait report =>
    refine ⟨?_, trivial⟩
    simp only [Running.step] at taken
    split at taken
    case h_1 data batch waiting reports =>
      cases taken
      obtain ⟨valid, sound, fewer, asked⟩ := lawful.wait following.kept.valid reports
      have changed := following.change valid fewer
      refine ⟨changed.kept, changed.plain, ?_, ?_⟩
      · rintro _ ⟨⟩
        exact sound
      · rintro _ ⟨⟩ fd asks
        exact changed.kept.entered fd (asked fd asks)
    case h_2 =>
      cases taken
      exact following
  | serve reads writes =>
    simp only [Running.step] at taken
    split at taken
    case h_1 waiting =>
      cases taken
      refine ⟨following, ?_⟩
      intro batch fd later left
      rw [waiting] at left
      cases left
    case h_2 batch left =>
      obtain ⟨⟨dispatch, rest⟩, serves, same⟩ := bind_eq_ok.mp taken
      cases same
      obtain ⟨behind, keeps⟩ := following.serve left serves
      refine ⟨behind, ?_⟩
      intro other fd later same
      cases left.symm.trans same
      exact keeps fd later
  | handlePending =>
    refine ⟨?_, trivial⟩
    simp only [Running.step] at taken
    split at taken
    case isTrue =>
      obtain ⟨dispatch, handled, same⟩ := bind_eq_ok.mp taken
      cases same
      obtain ⟨outcome, empty⟩ := handlePendingChannel_outcome following.kept handled
      refine ⟨outcome.kept, ?_, nofun, nofun⟩
      rw [empty]
      exact nofun
    case isFalse =>
      cases taken
      exact following
  | queueAdd channel memory =>
    cases taken
    exact ⟨⟨following.kept, following.plain.concat nofun, following.sound, following.reported⟩,
      trivial⟩
  | queueUpdate channel events =>
    cases taken
    have changed := setEvents_outcome following.kept channel events
    exact ⟨⟨changed.kept, following.plain.concat nofun, following.sound, following.reported⟩,
      trivial⟩
  | close fd =>
    cases taken
    obtain ⟨valid, fewer⟩ := lawful.close following.kept.valid fd
    exact ⟨following.change valid fewer, trivial⟩
  | takeDescriptor fd =>
    cases taken
    obtain ⟨valid, fewer⟩ := lawful.takeDescriptor following.kept.valid fd
    exact ⟨following.change valid fewer, trivial⟩

theorem safe {event : LoopEvent Data Report} (following : Following lawful running)
    (keeps : KeepsEntry backend running event) : Safe (running.step backend event) := by
  cases event with
  | wait report =>
    simp only [Running.step]
    split <;> exact Safe.ok _
  | serve reads writes =>
    simp only [Running.step]
    split
    case h_1 => exact Safe.ok _
    case h_2 batch left =>
      refine Safe.bind ?_ fun _ _ => Safe.ok _
      unfold Running.serve
      split
      case h_1 => exact Safe.ok _
      case h_2 => exact Safe.ok _
      case h_3 => exact Safe.ok _
      case h_4 fd readable writable rest comes =>
        refine Safe.bind ?_ fun _ _ => Safe.ok _
        obtain ⟨positive, held⟩ := following.asked left comes
        apply activateReady_safe following.kept following.plain positive held
        rintro rfl rfl
        exact keeps batch fd rest left comes
  | handlePending =>
    simp only [Running.step]
    split
    · exact Safe.bind (Safe.handlePendingChannel lawful _) fun _ _ => Safe.ok _
    · exact Safe.ok _
  | queueAdd => exact Safe.ok _
  | queueUpdate => exact Safe.ok _
  | close => exact Safe.ok _
  | takeDescriptor => exact Safe.ok _

theorem start {data : Data} (valid : lawful.valid data)
    (none : ∀ fd, ¬ lawful.watched data fd) (channels : List Channel) :
    Following lawful (.start data channels) := by
  refine ⟨⟨valid, ?_, ?_⟩, nofun, nofun, nofun⟩
  · intro fd watched
    exact absurd watched (none fd)
  · exact nofun

end Following

/-- A loop of which `channel_event_activate` always finds the channel as long as no read
callback takes the entry of its descriptor away from a write activation, and whose runs
succeed only then. -/
def FilledWhileKept (backend : Backend Data Report Batch) (start : Running Data Batch) : Prop :=
  ∀ events, (Along (Running.step backend) (KeepsEntry backend) start events →
      Safe (run (Running.step backend) start events)) ∧
    ∀ final, run (Running.step backend) start events = .ok final →
      Along (Running.step backend) (KeepsEntry backend) start events

theorem Following.filled {running : Running Data Batch} (following : Following lawful running) :
    FilledWhileKept backend running := by
  intro events
  constructor
  · intro along stop failure
    have stops (state : Running Data Batch) (event : LoopEvent Data Report) (stop : Stop)
        (kept : Following lawful state) (keeps : KeepsEntry backend state event)
        (taken : state.step backend event = .error stop) : Harmless stop :=
      kept.safe keeps stop taken
    exact run_stops_along (Following lawful) (fun _ _ _ kept _ taken => (kept.step taken).1) stops
      following along failure
  · intro final success
    exact along_of_run (Following lawful) (fun _ _ _ kept taken => (kept.step taken).1)
      (fun _ _ _ kept taken => (kept.step taken).2) following success

end Yolanda.Lib
