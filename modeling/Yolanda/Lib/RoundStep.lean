import Yolanda.Lib.Dispatch

/-! One round of dispatching from a table of channels: what has become of the table when some
of the descriptors have been served. -/

namespace Yolanda.Lib

open App (Channel)
open Foundation

/-- What a callback does to the channel it is called for. -/
inductive Callback where
  | keep
  | retune (events : BitVec 32)
  | remove
  deriving DecidableEq, Repr

/-- The read and the write callback of a descriptor. -/
structure Callbacks where
  read : Callback
  write : Callback
  deriving DecidableEq, Repr

namespace Callback

def effects (own : Nat) : Callback → List Effect
  | .keep => []
  | .retune events => [.update own events]
  | .remove => [.remove]

/-- The events of the channel behind the callback. -/
def events (before : BitVec 32) : Callback → BitVec 32
  | .keep => before
  | .retune events => events
  | .remove => before

end Callback

/-- The channels of a loop, each entry one of its descriptor. -/
structure ChannelTable where
  channels : List Channel
  channelMap : ChannelMap
  known : ∀ fd number, channelMap.lookup fd = some number →
    ∃ channel, channels[number]? = some channel ∧ channel.fd = fd

variable {Data Report Batch : Type}

/-- One entry of a report, with the callbacks of its descriptor. -/
def serveOnce (backend : Backend Data Report Batch) (callbacks : Int → Callbacks)
    (dispatch : Dispatch Data) (batch : Batch) : Except Stop (Dispatch Data × Batch) :=
  match backend.next dispatch.dispatcherData batch with
  | some (.activate fd _ _, _) =>
    let own := (dispatch.channelMap.lookup fd.toNat).getD 0
    Running.serve backend ((callbacks fd).read.effects own) ((callbacks fd).write.effects own)
      dispatch batch
  | _ => Running.serve backend [] [] dispatch batch

/-- The loop of `dispatch` over a number of entries. Behind the last one nothing is done. -/
def serveAll (backend : Backend Data Report Batch) (callbacks : Int → Callbacks) :
    Nat → Dispatch Data → Batch → Except Stop (Dispatch Data)
  | 0, dispatch, _ => .ok dispatch
  | count + 1, dispatch, batch => do
    let (dispatch, batch) ← serveOnce backend callbacks dispatch batch
    serveAll backend callbacks count dispatch batch

/-- `dispatch`, for a report that the system call may give. -/
def dispatchRound (backend : Backend Data Report Batch) (callbacks : Int → Callbacks)
    (count : Nat) (dispatch : Dispatch Data) (report : Report) : Except Stop (Dispatch Data) :=
  match backend.wait dispatch.dispatcherData report with
  | none => .ok dispatch
  | some (dispatcherData, batch) =>
    serveAll backend callbacks count { dispatch with dispatcherData } batch

namespace ChannelTable

/-- A loop with the table before a round. -/
def dispatch (table : ChannelTable) (dispatcherData : Data) : Dispatch Data :=
  { dispatcherData
    channels := table.channels
    channelMap := table.channelMap
    pending := []
    activated := fun _ => []
    closed := [] }

/-- The channel of the entry of a descriptor. -/
def channelOf (table : ChannelTable) (fd : Nat) : Option Channel :=
  (table.channelMap.lookup fd).bind fun number => table.channels[number]?

/-- The callbacks that have been called for a descriptor by the activations it has had, of
reading and of writing. -/
def performed (table : ChannelTable) (callbacks : Int → Callbacks) (mode : Nat → Bool × Bool)
    (fd : Nat) : List Callback :=
  match table.channelOf fd with
  | none => []
  | some channel =>
    (if (mode fd).1 && channel.eventReadCallback.isSome then [(callbacks fd).read] else []) ++
      (if (mode fd).2 && channel.eventWriteCallback.isSome then [(callbacks fd).write] else [])

end ChannelTable

/-- The calls of `channel_event_activate` for a descriptor. -/
def calls (mode : Bool × Bool) : List (BitVec 32) :=
  (if mode.1 then [App.eventRead] else []) ++ (if mode.2 then [App.eventWrite] else [])

/-- The table behind the activations of a mode. -/
structure Progress (table : ChannelTable) (callbacks : Int → Callbacks)
    (mode : Nat → Bool × Bool) (dispatch : Dispatch Data) : Prop where
  channels : ∀ number, dispatch.channels[number]? = table.channels[number]?.map fun channel =>
    if table.channelMap.lookup channel.fd.toNat = some number then
      { channel with
        events := (table.performed callbacks mode channel.fd.toNat).foldl Callback.events
          channel.events }
    else channel
  lookup : ∀ fd, dispatch.channelMap.lookup fd =
    if .remove ∈ table.performed callbacks mode fd then none else table.channelMap.lookup fd
  nentries : dispatch.channelMap.nentries = table.channelMap.nentries
  activated : ∀ fd, dispatch.activated fd = if fd < 0 then [] else calls (mode fd.toNat)
  pending : dispatch.pending = []

/-- What a dispatcher does for one descriptor, as far as its data for the others is
concerned. -/
structure Frame (dispatcher : EventDispatcher Data) where
  holds : Data → Nat → Prop
  apart : Nat → Data → Data → Prop
  refl : ∀ fd data, apart fd data data
  trans : ∀ {fd first second third}, apart fd first second → apart fd second third →
    apart fd first third
  del : ∀ {data channel fd}, holds data fd → channel.fd = (fd : Int) →
    ∃ later, dispatcher.del data channel = .ok (0, later) ∧ apart fd data later
  update : ∀ {data channel fd}, holds data fd → channel.fd = (fd : Int) →
    ∃ later, dispatcher.update data channel = .ok (0, later) ∧ apart fd data later ∧
      holds later fd

variable {dispatcher : EventDispatcher Data} {dispatch : Dispatch Data}

/-- What one callback has done to a loop, of which it was called for the channel `own`. -/
structure Performed (frame : Frame dispatcher) (dispatch later : Dispatch Data) (fd own : Nat)
    (callback : Callback) : Prop where
  channels : ∀ number, later.channels[number]? = dispatch.channels[number]?.map fun channel =>
    if own = number then { channel with events := callback.events channel.events } else channel
  lookup : ∀ asked, later.channelMap.lookup asked =
    if asked = fd ∧ callback = .remove then none else dispatch.channelMap.lookup asked
  nentries : later.channelMap.nentries = dispatch.channelMap.nentries
  activated : later.activated = dispatch.activated
  closed : later.closed = dispatch.closed
  pending : later.pending = []
  apart : frame.apart fd dispatch.dispatcherData later.dispatcherData
  holds : callback ≠ .remove → frame.holds later.dispatcherData fd

theorem doChannelEvent_alone {element : Element} {loop : EventLoop Data}
    (empty : dispatch.pending = [])
    (handled : Dispatch.handlePending dispatcher dispatch.toEventLoop element = .ok loop) :
    dispatch.doChannelEvent dispatcher element = .ok { dispatch with
      toEventLoop := loop
      pending := [] } := by
  simp only [Dispatch.doChannelEvent, Dispatch.handlePendingChannel, empty, List.nil_append,
    Dispatch.handleAll, handled, bind, Except.bind, pure, Except.pure]

section Entered

variable {fd own : Nat} {channel : Channel}

private theorem retune_performed (frame : Frame dispatcher) (events : BitVec 32)
    (empty : dispatch.pending = []) (entry : dispatch.channelMap.lookup fd = some own)
    (found : dispatch.channels[own]? = some channel) (place : channel.fd = (fd : Int))
    (holds : frame.holds dispatch.dispatcherData fd) :
    ∃ later, dispatch.perform dispatcher own (.update own events) = .ok later ∧
      Performed frame dispatch later fd own (.retune events) := by
  have positive : 0 ≤ channel.fd := by omega
  have here : channel.fd.toNat = fd := by omega
  have registered : dispatch.channelMap.lookup channel.fd.toNat ≠ none := by
    rw [here, entry]
    exact nofun
  have changed : (dispatch.setEvents own events).channels[own]? = some { channel with events } := by
    rw [EventLoop.getElem?_setEvents, found, Option.map_some, if_pos rfl]
  obtain ⟨data, updated, apart, still⟩ := @Frame.update _ _ frame _ { channel with events } _
    holds place
  have success := @EventLoop.handlePendingUpdate_registered _ dispatcher
    (dispatch.setEvents own events) channel.fd own _ 0 _ positive registered changed updated
  have handled : Dispatch.handlePending dispatcher (dispatch.setEvents own events) (.update own) =
      .ok { dispatch.setEvents own events with dispatcherData := data } := by
    simp only [Dispatch.handlePending, EventLoop.channelAt_ok changed, bind, Except.bind, success]
    rfl
  have performed := @doChannelEvent_alone _ dispatcher { dispatch with
    toEventLoop := dispatch.setEvents own events } _ _ empty handled
  refine ⟨{ dispatch with
    toEventLoop := { dispatch.setEvents own events with dispatcherData := data }
    pending := [] }, performed, ?_, fun _ => (if_neg fun both => nomatch both.2).symm, rfl, rfl, rfl,
    rfl, apart, fun _ => still⟩
  intro number
  exact EventLoop.getElem?_setEvents dispatch.toEventLoop own number events

private theorem remove_performed (frame : Frame dispatcher) (empty : dispatch.pending = [])
    (entry : dispatch.channelMap.lookup fd = some own)
    (found : dispatch.channels[own]? = some channel) (place : channel.fd = (fd : Int))
    (holds : frame.holds dispatch.dispatcherData fd) :
    ∃ later, dispatch.perform dispatcher own .remove = .ok later ∧
      Performed frame dispatch later fd own .remove := by
  have positive : 0 ≤ channel.fd := by omega
  have here : channel.fd.toNat = fd := by omega
  have entry' : dispatch.channelMap.lookup channel.fd.toNat = some own := here ▸ entry
  obtain ⟨data, deleted, apart⟩ := frame.del holds place
  have success := @EventLoop.handlePendingRemove_registered _ dispatcher dispatch.toEventLoop own
    _ _ 0 _ found positive _ entry' found deleted
  have handled : Dispatch.handlePending dispatcher dispatch.toEventLoop (.remove own) =
      .ok { dispatch.toEventLoop with
        dispatcherData := data
        channelMap := dispatch.channelMap.write channel.fd.toNat none } := by
    simp only [Dispatch.handlePending, EventLoop.channelAt_ok found, bind, Except.bind, success]
    rfl
  have performed := doChannelEvent_alone empty handled
  refine ⟨{ dispatch with
    dispatcherData := data
    channelMap := dispatch.channelMap.write channel.fd.toNat none
    pending := [] }, performed, ?_, ?_, ChannelMap.nentries_write .., rfl, rfl, rfl, apart,
    fun other => absurd rfl other⟩
  · intro number
    simp [Callback.events]
  · intro asked
    have inside : channel.fd.toNat < dispatch.channelMap.entries.length :=
      ChannelMap.lt_of_lookup (by rw [entry']; exact nofun)
    change (dispatch.channelMap.write channel.fd.toNat none).lookup asked = _
    rw [ChannelMap.lookup_write inside none, here]
    by_cases same : asked = fd
    · rw [if_pos ⟨same, rfl⟩, same, Function.update_self]
    · rw [if_neg fun both => same both.1, Function.update_of_ne same]

/-- A callback for a channel that has its entry succeeds. -/
theorem performAll_performed (frame : Frame dispatcher) (callback : Callback)
    (empty : dispatch.pending = []) (entry : dispatch.channelMap.lookup fd = some own)
    (found : dispatch.channels[own]? = some channel) (place : channel.fd = (fd : Int))
    (holds : frame.holds dispatch.dispatcherData fd) :
    ∃ later, dispatch.performAll dispatcher own (callback.effects own) = .ok later ∧
      Performed frame dispatch later fd own callback := by
  cases callback with
  | keep =>
    refine ⟨dispatch, rfl, ?_, fun _ => (if_neg fun both => nomatch both.2).symm, rfl, rfl, rfl,
      empty, frame.refl .., fun _ => holds⟩
    intro number
    simp [Callback.events]
  | retune events =>
    obtain ⟨later, success, performed⟩ :=
      retune_performed frame events empty entry found place holds
    refine ⟨later, ?_, performed⟩
    simp only [Callback.effects, Dispatch.performAll, bind, Except.bind, success]
  | remove =>
    obtain ⟨later, success, performed⟩ := remove_performed frame empty entry found place holds
    refine ⟨later, ?_, performed⟩
    simp only [Callback.effects, Dispatch.performAll, bind, Except.bind, success]

end Entered

/-- The read callback of a descriptor is there and removes its channel. -/
def ChannelTable.Torn (table : ChannelTable) (callbacks : Int → Callbacks) (fd : Nat) : Prop :=
  ∃ channel, table.channelOf fd = some channel ∧ channel.eventReadCallback.isSome ∧
    (callbacks fd).read = .remove

variable {table : ChannelTable} {callbacks : Int → Callbacks} {mode : Nat → Bool × Bool}
variable {fd own : Nat} {channel : Channel}

namespace ChannelTable

theorem channelOf_eq (entry : table.channelMap.lookup fd = some own)
    (found : table.channels[own]? = some channel) : table.channelOf fd = some channel := by
  rw [channelOf, entry, Option.bind_some, found]

/-- Only the mode of a descriptor tells what its callbacks have done. -/
theorem performed_congr {other : Nat → Bool × Bool} (same : other fd = mode fd) :
    table.performed callbacks other fd = table.performed callbacks mode fd := by
  unfold performed
  rw [same]

theorem performed_update {asked : Nat} {activations : Bool × Bool} (differ : asked ≠ fd) :
    table.performed callbacks (Function.update mode fd activations) asked =
      table.performed callbacks mode asked :=
  performed_congr (Function.update_of_ne differ ..)

theorem performed_eq (at_ : table.channelOf fd = some channel) :
    table.performed callbacks mode fd =
      (if (mode fd).1 && channel.eventReadCallback.isSome then [(callbacks fd).read] else []) ++
        (if (mode fd).2 && channel.eventWriteCallback.isSome then [(callbacks fd).write]
          else []) := by
  unfold performed
  rw [at_]

theorem torn_iff (reads : mode fd = (true, false)) :
    table.Torn callbacks fd ↔ .remove ∈ table.performed callbacks mode fd := by
  unfold Torn
  cases place : table.channelOf fd with
  | none => simp [performed, place]
  | some channel =>
    rw [performed_eq place, reads]
    cases called : channel.eventReadCallback.isSome with
    | true =>
      simp only [Option.some.injEq, exists_eq_left', called, true_and, Bool.and_self, if_true,
        Bool.false_and, Bool.false_eq_true, if_false, List.append_nil, List.mem_singleton]
      exact eq_comm
    | false => simp [called]

end ChannelTable

/-- One more activation of a descriptor, and what its callback has done, if it has one. -/
theorem Progress.advance {later : Dispatch Data} {activations : Bool × Bool}
    {extra : List Callback} {mask : BitVec 32} (progress : Progress table callbacks mode dispatch)
    (entry : table.channelMap.lookup fd = some own)
    (more : table.performed callbacks (Function.update mode fd activations) fd =
      table.performed callbacks mode fd ++ extra)
    (called : calls activations = calls (mode fd) ++ [mask])
    (channels : ∀ number, later.channels[number]? = dispatch.channels[number]?.map fun channel =>
      if own = number then { channel with events := extra.foldl Callback.events channel.events }
      else channel)
    (lookup : ∀ asked, later.channelMap.lookup asked =
      if asked = fd ∧ .remove ∈ extra then none else dispatch.channelMap.lookup asked)
    (nentries : later.channelMap.nentries = dispatch.channelMap.nentries)
    (activated : later.activated = (dispatch.record fd mask).activated)
    (pending : later.pending = []) :
    Progress table callbacks (Function.update mode fd activations) later := by
  refine ⟨?_, ?_, nentries.trans progress.nentries, ?_, pending⟩
  · intro number
    rw [channels, progress.channels, Option.map_map]
    cases found : table.channels[number]? with
    | none => rfl
    | some channel =>
      simp only [Option.map_some, Function.comp_apply, Option.some.injEq]
      by_cases same : own = number
      · subst same
        obtain ⟨channel', found', place⟩ := table.known fd own entry
        cases found.symm.trans found'
        have here : channel.fd.toNat = fd := by omega
        simp only [here, entry, if_true, more, List.foldl_append]
      · by_cases mapped : table.channelMap.lookup channel.fd.toNat = some number
        · have differ : channel.fd.toNat ≠ fd := by
            intro here
            rw [here, entry] at mapped
            exact same (Option.some.inj mapped)
          simp only [if_neg same, if_pos mapped, ChannelTable.performed_update differ]
        · simp only [if_neg same, if_neg mapped]
  · intro asked
    rw [lookup, progress.lookup]
    by_cases here : asked = fd
    · subst here
      by_cases removed : .remove ∈ extra
      · simp only [more, List.mem_append, removed, true_and, or_true, if_true]
      · simp only [more, List.mem_append, removed, and_false, or_false, if_false]
    · rw [if_neg fun both => here both.1, ChannelTable.performed_update here]
  · intro asked
    rw [activated]
    by_cases here : asked = fd
    · have positive : ¬ asked < 0 := by omega
      have place : asked.toNat = fd := by omega
      have before : dispatch.activated fd = calls (mode fd) := by
        rw [progress.activated, if_neg (by omega), Int.toNat_natCast]
      rw [if_neg positive, place, Function.update_self, called, ← before, here]
      exact Function.update_self ..
    · simp only [Dispatch.record, Function.update_of_ne here, progress.activated]
      by_cases negative : asked < 0
      · simp only [if_pos negative]
      · have differ : asked.toNat ≠ fd := by omega
        simp only [if_neg negative, Function.update_of_ne differ]

/-- The channel of a descriptor during a round: only its events may have changed. -/
theorem Progress.found (progress : Progress table callbacks mode dispatch)
    (entry : table.channelMap.lookup fd = some own) :
    ∃ original channel, table.channelOf fd = some original ∧
      dispatch.channels[own]? = some channel ∧ channel.fd = (fd : Int) ∧
      channel.eventReadCallback = original.eventReadCallback ∧
      channel.eventWriteCallback = original.eventWriteCallback := by
  obtain ⟨original, found, place⟩ := table.known fd own entry
  have present := progress.channels own
  have here : original.fd.toNat = fd := by omega
  rw [found, Option.map_some, here, if_pos entry] at present
  exact ⟨original, _, table.channelOf_eq entry found, present, place, rfl, rfl⟩

/-- One activation: the callback of its kind is called if the channel has one. -/
structure Step (frame : Frame dispatcher) (table : ChannelTable) (callbacks : Int → Callbacks)
    (mode : Nat → Bool × Bool) (dispatch later : Dispatch Data) (fd : Nat) : Prop where
  progress : Progress table callbacks mode later
  closed : later.closed = dispatch.closed
  apart : frame.apart fd dispatch.dispatcherData later.dispatcherData
  holds : .remove ∉ table.performed callbacks mode fd → frame.holds later.dispatcherData fd

/-- An activation whose callback, if `called`, is the given one. -/
theorem Progress.activation {frame : Frame dispatcher} {activations : Bool × Bool}
    {mask : BitVec 32} {called : Bool} {callback : Callback}
    (progress : Progress table callbacks mode dispatch)
    (entry : table.channelMap.lookup fd = some own)
    (keeps : .remove ∉ table.performed callbacks mode fd)
    (holds : frame.holds dispatch.dispatcherData fd)
    (more : table.performed callbacks (Function.update mode fd activations) fd =
      table.performed callbacks mode fd ++ if called then [callback] else [])
    (recorded : calls activations = calls (mode fd) ++ [mask]) :
    ∃ later, (if called then
        (dispatch.record fd mask).performAll dispatcher own (callback.effects own)
      else .ok (dispatch.record fd mask)) = .ok later ∧
      Step frame table callbacks (Function.update mode fd activations) dispatch later fd := by
  obtain ⟨original, channel, _, found, place, _⟩ := progress.found entry
  have mapped : dispatch.channelMap.lookup fd = some own := by
    rw [progress.lookup, if_neg keeps, entry]
  cases called with
  | true =>
    have empty : (dispatch.record fd mask).pending = [] := progress.pending
    obtain ⟨later, taken, performed⟩ :=
      @performAll_performed _ dispatcher (dispatch.record fd mask) fd own channel frame callback
        empty mapped found place holds
    refine ⟨later, taken, ?_, performed.closed, performed.apart, ?_⟩
    · apply progress.advance entry more recorded performed.channels ?_ performed.nentries
        performed.activated performed.pending
      intro asked
      rw [performed.lookup]
      simp only [if_true, List.mem_singleton, eq_comm (a := Callback.remove)]
      rfl
    · intro kept
      apply performed.holds
      rintro rfl
      rw [more] at kept
      exact kept (List.mem_append_right _ (List.mem_singleton_self _))
  | false =>
    refine ⟨dispatch.record fd mask, rfl, ?_, rfl, frame.refl .., fun _ => holds⟩
    apply progress.advance entry more recorded
    · intro number
      simp [Dispatch.record]
    · intro asked
      simp [Dispatch.record]
    · rfl
    · rfl
    · exact progress.pending

theorem Progress.read {frame : Frame dispatcher} (writes : List Effect)
    (progress : Progress table callbacks mode dispatch)
    (entry : table.channelMap.lookup fd = some own) (fresh : mode fd = (false, false))
    (holds : frame.holds dispatch.dispatcherData fd) :
    ∃ later, dispatch.channelEventActivate dispatcher ((callbacks fd).read.effects own) writes fd
        App.eventRead = .ok later ∧
      Step frame table callbacks (Function.update mode fd (true, false)) dispatch later fd := by
  obtain ⟨original, channel, place, found, fdOf, reads, _⟩ := progress.found entry
  have nothing : table.performed callbacks mode fd = [] := by
    rw [ChannelTable.performed_eq place, fresh]
    rfl
  have keeps : .remove ∉ table.performed callbacks mode fd := by
    rw [nothing]
    exact List.not_mem_nil
  have mapped : dispatch.channelMap.lookup (fd : Int).toNat = some own := by
    rw [Int.toNat_natCast, progress.lookup, if_neg keeps, entry]
  rw [Dispatch.activate_read (Int.natCast_nonneg fd) mapped found fdOf]
  apply progress.activation entry keeps holds
  · rw [nothing, ChannelTable.performed_eq place, Function.update_self, reads]
    simp
  · rw [fresh]
    rfl

theorem Progress.write {frame : Frame dispatcher} {readable : Bool} (reads : List Effect)
    (progress : Progress table callbacks mode dispatch)
    (entry : table.channelMap.lookup fd = some own) (fresh : mode fd = (readable, false))
    (keeps : .remove ∉ table.performed callbacks mode fd)
    (holds : frame.holds dispatch.dispatcherData fd) :
    ∃ later, dispatch.channelEventActivate dispatcher reads ((callbacks fd).write.effects own) fd
        App.eventWrite = .ok later ∧
      Step frame table callbacks (Function.update mode fd (readable, true)) dispatch later fd := by
  obtain ⟨original, channel, place, found, fdOf, _, writes⟩ := progress.found entry
  have mapped : dispatch.channelMap.lookup (fd : Int).toNat = some own := by
    rw [Int.toNat_natCast, progress.lookup, if_neg keeps, entry]
  rw [Dispatch.activate_write (Int.natCast_nonneg fd) mapped found fdOf]
  apply progress.activation entry keeps holds
  · rw [ChannelTable.performed_eq place, ChannelTable.performed_eq place, Function.update_self,
      fresh, writes]
    simp
  · rw [fresh]
    cases readable <;> rfl

/-- Behind a read callback that has removed the channel the write activation finds the entry
empty. -/
theorem Progress.blocked {reads writes : List Effect}
    (progress : Progress table callbacks mode dispatch)
    (entry : table.channelMap.lookup fd = some own)
    (removed : .remove ∈ table.performed callbacks mode fd) :
    dispatch.channelEventActivate dispatcher reads writes fd App.eventWrite =
      .error .emptySlot := by
  have inside := ChannelMap.lt_of_lookup (by rw [entry]; exact nofun)
  have same := progress.nentries
  apply Dispatch.activate_empty (Int.natCast_nonneg fd) (by omega)
  rw [Int.toNat_natCast, progress.lookup, if_pos removed]

/-- The activations of one event. -/
theorem Progress.activate {frame : Frame dispatcher}
    (progress : Progress table callbacks mode dispatch)
    (entry : table.channelMap.lookup fd = some own) (fresh : mode fd = (false, false))
    (holds : frame.holds dispatch.dispatcherData fd) (readable writable : Bool) :
    (readable = true ∧ writable = true ∧ table.Torn callbacks fd ∧
      dispatch.activateReady dispatcher ((callbacks fd).read.effects own)
        ((callbacks fd).write.effects own) fd readable writable = .error .emptySlot) ∨
    ¬ (readable = true ∧ writable = true ∧ table.Torn callbacks fd) ∧
      ∃ later, dispatch.activateReady dispatcher ((callbacks fd).read.effects own)
        ((callbacks fd).write.effects own) fd readable writable = .ok later ∧
        Progress table callbacks (Function.update mode fd (readable, writable)) later ∧
        later.closed = dispatch.closed ∧
        frame.apart fd dispatch.dispatcherData later.dispatcherData := by
  have torn := @ChannelTable.torn_iff table callbacks (Function.update mode fd (true, false)) fd
    (Function.update_self ..)
  cases readable with
  | false =>
    right
    refine ⟨nofun, ?_⟩
    cases writable with
    | false =>
      refine ⟨dispatch, rfl, ?_, rfl, frame.refl ..⟩
      rw [← fresh, Function.update_eq_self]
      exact progress
    | true =>
      have keeps : .remove ∉ table.performed callbacks mode fd := by
        obtain ⟨original, channel, place, _⟩ := progress.found entry
        rw [ChannelTable.performed_eq place, fresh]
        exact List.not_mem_nil
      obtain ⟨later, taken, step⟩ := progress.write _ entry fresh keeps holds
      exact ⟨later, taken, step.progress, step.closed, step.apart⟩
  | true =>
    obtain ⟨middle, first, step⟩ := progress.read ((callbacks fd).write.effects own) entry fresh holds
    cases writable with
    | false =>
      right
      refine ⟨nofun, middle, ?_, step.progress, step.closed, step.apart⟩
      simp only [Dispatch.activateReady, if_true, first]
      rfl
    | true =>
      by_cases removed : .remove ∈
          table.performed callbacks (Function.update mode fd (true, false)) fd
      · left
        refine ⟨rfl, rfl, torn.mpr removed, ?_⟩
        simp only [Dispatch.activateReady, if_true, first, bind, Except.bind,
          step.progress.blocked entry removed]
      · right
        obtain ⟨later, second, step'⟩ := step.progress.write ((callbacks fd).read.effects own) entry
          (Function.update_self ..) removed (step.holds removed)
        refine ⟨fun all => removed (torn.mp all.2.2), later, ?_, ?_, step'.closed.trans step.closed,
          frame.trans step.apart step'.apart⟩
        · simp only [Dispatch.activateReady, if_true, first, bind, Except.bind, second]
        · have progress' := step'.progress
          rwa [Function.update_idem] at progress'

variable {backend : Backend Data Report Batch} {batch later : Batch}

/-- Nothing is left of the report. -/
theorem serveAll_done (none : backend.next dispatch.dispatcherData batch = none) (count : Nat) :
    serveAll backend callbacks count dispatch batch = .ok dispatch := by
  induction count with
  | zero => rfl
  | succ count ih => simp only [serveAll, serveOnce, Running.serve, none, bind, Except.bind, ih]

theorem serveAll_skip (comes : backend.next dispatch.dispatcherData batch = some (.skip, later))
    (count : Nat) : serveAll backend callbacks (count + 1) dispatch batch =
      serveAll backend callbacks count dispatch later := by
  simp only [serveAll, serveOnce, Running.serve, comes, bind, Except.bind]

theorem serveAll_close {closed : Int}
    (comes : backend.next dispatch.dispatcherData batch = some (.close closed, later))
    (count : Nat) : serveAll backend callbacks (count + 1) dispatch batch =
      serveAll backend callbacks count { dispatch with
        dispatcherData := backend.close dispatch.dispatcherData closed
        closed := dispatch.closed ++ [closed] } later := by
  simp only [serveAll, serveOnce, Running.serve, comes, bind, Except.bind]

/-- One entry that is passed on to the callbacks of its descriptor. -/
theorem Progress.serve (frame : Frame backend.toEventDispatcher) {readable writable : Bool}
    (progress : Progress table callbacks mode dispatch)
    (place : table.channelOf fd = some channel) (fresh : mode fd = (false, false))
    (holds : frame.holds dispatch.dispatcherData fd)
    (comes : backend.next dispatch.dispatcherData batch =
      some (.activate fd readable writable, later)) (count : Nat) :
    (readable = true ∧ writable = true ∧ table.Torn callbacks fd ∧
      serveAll backend callbacks (count + 1) dispatch batch = .error .emptySlot) ∨
    ¬ (readable = true ∧ writable = true ∧ table.Torn callbacks fd) ∧
      ∃ next, serveAll backend callbacks (count + 1) dispatch batch =
          serveAll backend callbacks count next later ∧
        Progress table callbacks (Function.update mode fd (readable, writable)) next ∧
        next.closed = dispatch.closed ∧
        frame.apart fd dispatch.dispatcherData next.dispatcherData := by
  obtain ⟨own, entry, _⟩ := Option.bind_eq_some_iff.mp place
  have nothing : table.performed callbacks mode fd = [] := by
    rw [ChannelTable.performed_eq place, fresh]
    rfl
  have mapped : dispatch.channelMap.lookup fd = some own := by
    rw [progress.lookup, nothing, if_neg List.not_mem_nil, entry]
  have served : serveAll backend callbacks (count + 1) dispatch batch = (do
      let dispatch ← dispatch.activateReady backend.toEventDispatcher
        ((callbacks fd).read.effects own) ((callbacks fd).write.effects own) fd readable writable
      serveAll backend callbacks count dispatch later) := by
    simp only [serveAll, serveOnce, Running.serve, comes, Int.toNat_natCast, mapped,
      Option.getD_some]
    cases dispatch.activateReady backend.toEventDispatcher ((callbacks fd).read.effects own)
      ((callbacks fd).write.effects own) fd readable writable with
    | ok _ => rfl
    | error _ => rfl
  rcases progress.activate entry fresh holds readable writable with
    ⟨reads, writes, torn, stops⟩ | ⟨kept, next, taken, after, closed, apart⟩
  · left
    rw [stops] at served
    exact ⟨reads, writes, torn, served⟩
  · right
    rw [taken] at served
    exact ⟨kept, next, served, after, closed, apart⟩

end Yolanda.Lib
