import Yolanda.App.Channel
import Yolanda.Lib.ChannelMap

/-! The operations of a loop of the C library on its table and its dispatcher. The channels
are those of the C++ library. -/

namespace Yolanda.Lib

open App (Channel)

/-- The functions of `struct event_dispatcher` that change its data, with what they
return. -/
structure EventDispatcher (Data : Type) where
  add : Data → Channel → Except Stop (Int × Data)
  del : Data → Channel → Except Stop (Int × Data)
  update : Data → Channel → Except Stop (Int × Data)

/-- What the operations of `struct event_loop` read and change. A channel is known by its
place among the channels. -/
structure EventLoop (Data : Type) where
  dispatcherData : Data
  channels : List Channel
  channelMap : ChannelMap

namespace EventLoop

variable {Data : Type}

/-- `channel->events = events` -/
def setEvents (loop : EventLoop Data) (channel : Nat) (events : BitVec 32) : EventLoop Data :=
  { loop with channels := loop.channels.modify channel fun channel =>
      { channel with events } }

theorem getElem?_setEvents (loop : EventLoop Data) (number other : Nat) (events : BitVec 32) :
    (loop.setEvents number events).channels[other]? = loop.channels[other]?.map fun channel =>
      if number = other then { channel with events } else channel :=
  List.getElem?_modify _ _ _ _

variable (dispatcher : EventDispatcher Data)

/-- The object behind a pointer to a channel. -/
def channelAt (loop : EventLoop Data) (channel : Nat) : Except Stop Channel :=
  match loop.channels[channel]? with
  | some channel => .ok channel
  | none => .error .memory

/-- `event_loop_handle_pending_add`, where `memory` says whether `realloc` finds the memory
if it is called. -/
def handlePendingAdd (memory : Bool) (loop : EventLoop Data) (fd : Int) (channel : Nat) :
    Except Stop (Int × EventLoop Data) :=
  if fd < 0 then return (0, loop)
  else do
    match ← (if fd ≥ loop.channelMap.nentries then loop.channelMap.makeSpace fd.toNat memory
      else return some loop.channelMap) with
    | none => return (-1, loop)
    | some map =>
      match ← map.read fd.toNat with
      | some _ => return (0, { loop with channelMap := map })
      | none =>
        let added ← loop.channelAt channel
        let (_, dispatcherData) ← dispatcher.add loop.dispatcherData added
        return (1, { loop with
          dispatcherData
          channelMap := map.write fd.toNat (some channel) })

/-- `event_loop_handle_pending_remove` -/
def handlePendingRemove (loop : EventLoop Data) (fd : Int) (channel1 : Nat) :
    Except Stop (Int × EventLoop Data) := do
  let given ← loop.channelAt channel1
  if fd ≠ given.fd then throw .assertion
  else if fd < 0 then return (0, loop)
  else if fd ≥ loop.channelMap.nentries then return (-1, loop)
  else
    match ← loop.channelMap.read fd.toNat with
    -- the dispatcher reads the descriptor of a null pointer
    | none => throw .memory
    | some channel2 =>
      let mapped ← loop.channelAt channel2
      let (result, dispatcherData) ← dispatcher.del loop.dispatcherData mapped
      return (if result = -1 then -1 else 1, { loop with
        dispatcherData
        channelMap := loop.channelMap.write fd.toNat none })

/-- `event_loop_handle_pending_update`, which ends without a value behind the dispatcher. -/
def handlePendingUpdate (loop : EventLoop Data) (fd : Int) (channel : Nat) :
    Except Stop (Option Int × EventLoop Data) :=
  if fd < 0 then return (some 0, loop)
  else do
    match ← loop.channelMap.read fd.toNat with
    | none => return (some (-1), loop)
    | some _ =>
      let updated ← loop.channelAt channel
      let (_, dispatcherData) ← dispatcher.update loop.dispatcherData updated
      return (none, { loop with dispatcherData })

variable {dispatcher} {loop : EventLoop Data} {fd : Int} {channel : Nat} {memory : Bool}
variable {added mapped given : Channel} {result : Int} {dispatcherData : Data}

theorem channelAt_ok (found : loop.channels[channel]? = some added) :
    loop.channelAt channel = .ok added := by
  unfold channelAt
  rw [found]

/-- A descriptor with an entry is left as it is. -/
theorem handlePendingAdd_registered (positive : 0 ≤ fd)
    (registered : loop.channelMap.lookup fd.toNat ≠ none) :
    loop.handlePendingAdd dispatcher memory fd channel = .ok (0, loop) := by
  have inside := ChannelMap.lt_of_lookup registered
  obtain ⟨number, found⟩ := Option.ne_none_iff_exists'.mp registered
  rw [handlePendingAdd, if_neg (by omega), if_neg (by omega)]
  simp only [pure, bind, Except.pure, Except.bind, ChannelMap.read_ok inside, found]

/-- Without memory for the table nothing is recorded. -/
theorem handlePendingAdd_refused (grown : loop.channelMap.Grown) (positive : 0 ≤ fd)
    (small : fd < 2 ^ 27) (beyond : loop.channelMap.nentries ≤ fd) :
    loop.handlePendingAdd dispatcher false fd channel = .ok (-1, loop) := by
  obtain ⟨larger, _, _, _, made⟩ := @ChannelMap.makeSpace_ok _ fd.toNat grown (by omega)
    (by omega)
  rw [handlePendingAdd, if_neg (by omega), if_pos beyond, made false]
  rfl

theorem handlePendingAdd_overflow (grown : loop.channelMap.Grown) (large : 2 ^ 27 ≤ fd) :
    loop.handlePendingAdd dispatcher memory fd channel = .error .overflow := by
  have beyond : fd ≥ loop.channelMap.nentries := by
    obtain ⟨base, few, _, below⟩ := grown.base
    have power := Nat.pow_le_pow_right (show 0 < 2 by decide) few
    omega
  rw [handlePendingAdd, if_neg (by omega), if_pos beyond,
    ChannelMap.makeSpace_overflow grown (by omega) memory]
  rfl

/-- An addition finds a place for its descriptor. -/
theorem placeFor (grown : loop.channelMap.Grown) (positive : 0 ≤ fd) (small : fd < 2 ^ 27)
    (room : loop.channelMap.nentries ≤ fd → memory = true) :
    ∃ larger : ChannelMap, larger.Grown ∧ fd.toNat < larger.nentries ∧
      larger.lookup = loop.channelMap.lookup ∧
      (if fd ≥ loop.channelMap.nentries then loop.channelMap.makeSpace fd.toNat memory
        else return some loop.channelMap) = .ok (some larger) := by
  by_cases beyond : fd ≥ loop.channelMap.nentries
  · obtain ⟨larger, again, inside, same, grows⟩ :=
      @ChannelMap.makeSpace_ok _ fd.toNat grown (by omega) (by omega)
    refine ⟨larger, again, inside, same, ?_⟩
    rw [if_pos beyond, grows, if_pos (room beyond)]
  · exact ⟨loop.channelMap, grown, by omega, rfl, if_neg beyond⟩

/-- A new descriptor is recorded and handed to the dispatcher. -/
theorem handlePendingAdd_fresh (grown : loop.channelMap.Grown) (positive : 0 ≤ fd)
    (small : fd < 2 ^ 27) (fresh : loop.channelMap.lookup fd.toNat = none)
    (room : loop.channelMap.nentries ≤ fd → memory = true)
    (found : loop.channels[channel]? = some added)
    (made : dispatcher.add loop.dispatcherData added = .ok (result, dispatcherData)) :
    ∃ map : ChannelMap, map.Grown ∧
      map.lookup = Function.update loop.channelMap.lookup fd.toNat (some channel) ∧
      loop.handlePendingAdd dispatcher memory fd channel =
        .ok (1, { loop with dispatcherData, channelMap := map }) := by
  obtain ⟨larger, again, inside, same, grows⟩ := placeFor grown positive small room
  refine ⟨larger.write fd.toNat (some channel), again.write _ _, ?_, ?_⟩
  · rw [ChannelMap.lookup_write inside, same]
  · rw [handlePendingAdd, if_neg (by omega), grows]
    simp only [pure, bind, Except.pure, Except.bind, ChannelMap.read_ok inside, same, fresh,
      channelAt_ok found, made]

/-- The entry of a channel is emptied, and its descriptor taken from the dispatcher. -/
theorem handlePendingRemove_registered (found : loop.channels[channel]? = some given)
    (positive : 0 ≤ given.fd) {number : Nat}
    (registered : loop.channelMap.lookup given.fd.toNat = some number)
    (known : loop.channels[number]? = some mapped)
    (deleted : dispatcher.del loop.dispatcherData mapped = .ok (result, dispatcherData)) :
    loop.handlePendingRemove dispatcher given.fd channel =
      .ok (if result = -1 then -1 else 1, { loop with
        dispatcherData
        channelMap := loop.channelMap.write given.fd.toNat none }) := by
  have inside := ChannelMap.lt_of_lookup (by rw [registered]; exact nofun)
  rw [handlePendingRemove]
  simp only [bind, Except.bind, channelAt_ok found]
  rw [if_neg (by omega), if_neg (by omega), if_neg (by omega)]
  simp only [pure, Except.pure, ChannelMap.read_ok inside, registered, channelAt_ok known, deleted]

theorem handlePendingRemove_beyond (found : loop.channels[channel]? = some given)
    (positive : 0 ≤ given.fd) (beyond : loop.channelMap.nentries ≤ given.fd) :
    loop.handlePendingRemove dispatcher given.fd channel = .ok (-1, loop) := by
  rw [handlePendingRemove]
  simp only [bind, Except.bind, channelAt_ok found]
  rw [if_neg (by omega), if_neg (by omega), if_pos beyond]
  rfl

/-- An empty entry gives the dispatcher a null pointer. -/
theorem handlePendingRemove_empty (found : loop.channels[channel]? = some given)
    (positive : 0 ≤ given.fd) (inside : given.fd < loop.channelMap.nentries)
    (empty : loop.channelMap.lookup given.fd.toNat = none) :
    loop.handlePendingRemove dispatcher given.fd channel = .error .memory := by
  have entry : given.fd.toNat < loop.channelMap.nentries := by omega
  rw [handlePendingRemove]
  simp only [bind, Except.bind, channelAt_ok found]
  rw [if_neg (by omega), if_neg (by omega), if_neg (by omega)]
  simp only [ChannelMap.read_ok entry, empty]
  rfl

theorem handlePendingUpdate_registered (positive : 0 ≤ fd)
    (registered : loop.channelMap.lookup fd.toNat ≠ none)
    (found : loop.channels[channel]? = some given)
    (updated : dispatcher.update loop.dispatcherData given = .ok (result, dispatcherData)) :
    loop.handlePendingUpdate dispatcher fd channel = .ok (none, { loop with dispatcherData }) := by
  have inside := ChannelMap.lt_of_lookup registered
  obtain ⟨number, entry⟩ := Option.ne_none_iff_exists'.mp registered
  rw [handlePendingUpdate, if_neg (by omega)]
  simp only [pure, bind, Except.pure, Except.bind, ChannelMap.read_ok inside, entry,
    channelAt_ok found, updated]

theorem handlePendingUpdate_empty (positive : 0 ≤ fd) (inside : fd < loop.channelMap.nentries)
    (empty : loop.channelMap.lookup fd.toNat = none) :
    loop.handlePendingUpdate dispatcher fd channel = .ok (some (-1), loop) := by
  have entry : fd.toNat < loop.channelMap.nentries := by omega
  rw [handlePendingUpdate, if_neg (by omega)]
  simp only [pure, bind, Except.pure, Except.bind, ChannelMap.read_ok entry, empty]

/-- An update reads the table without a look at its size. -/
theorem handlePendingUpdate_beyond (positive : 0 ≤ fd)
    (beyond : loop.channelMap.nentries ≤ fd) :
    loop.handlePendingUpdate dispatcher fd channel = .error .memory := by
  rw [handlePendingUpdate, if_neg (by omega), ChannelMap.read_error (by omega)]
  rfl

theorem channelAt_eq_ok : loop.channelAt channel = .ok added ↔
    loop.channels[channel]? = some added := by
  unfold channelAt
  cases loop.channels[channel]? with
  | none => exact ⟨nofun, nofun⟩
  | some found => exact ⟨fun same => by cases same; rfl, fun same => by cases same; rfl⟩

/-- What an addition that returns has done. -/
theorem handlePendingAdd_cases {next : EventLoop Data}
    (taken : loop.handlePendingAdd dispatcher memory fd channel = .ok (result, next)) :
    next = loop ∧ (0 ≤ fd → loop.channelMap.nentries ≤ fd) ∨
      ∃ map : ChannelMap, 0 ≤ fd ∧ map.lookup = loop.channelMap.lookup ∧
        loop.channelMap.nentries ≤ map.nentries ∧ fd < map.nentries ∧
        (loop.channelMap.lookup fd.toNat ≠ none ∧ next = { loop with channelMap := map } ∨
          loop.channelMap.lookup fd.toNat = none ∧ ∃ added result dispatcherData,
            loop.channels[channel]? = some added ∧
            dispatcher.add loop.dispatcherData added = .ok (result, dispatcherData) ∧
            next = { loop with
              dispatcherData
              channelMap := map.write fd.toNat (some channel) }) := by
  unfold handlePendingAdd at taken
  split at taken
  case isTrue negative =>
    cases taken
    exact .inl ⟨rfl, fun positive => by omega⟩
  case isFalse positive =>
    obtain ⟨space, made, taken⟩ := bind_eq_ok.mp taken
    cases space with
    | none =>
      cases taken
      refine .inl ⟨rfl, fun _ => ?_⟩
      by_contra inside
      rw [if_neg inside] at made
      cases made
    | some map =>
      have grown : map.lookup = loop.channelMap.lookup ∧
          loop.channelMap.nentries ≤ map.nentries ∧ fd.toNat < map.nentries := by
        split at made
        case isTrue => exact ChannelMap.makeSpace_some made
        case isFalse inside =>
          cases made
          exact ⟨rfl, Nat.le_refl _, by omega⟩
      obtain ⟨same, larger, inside⟩ := grown
      refine .inr ⟨map, by omega, same, larger, by omega, ?_⟩
      obtain ⟨entry, read, taken⟩ := bind_eq_ok.mp taken
      rw [ChannelMap.read_ok inside, same, Except.ok.injEq] at read
      cases entry with
      | some number =>
        cases taken
        exact .inl ⟨by rw [read]; exact nofun, rfl⟩
      | none =>
        obtain ⟨added, found, taken⟩ := bind_eq_ok.mp taken
        obtain ⟨⟨code, dispatcherData⟩, made, taken⟩ := bind_eq_ok.mp taken
        cases taken
        exact .inr ⟨read, added, code, dispatcherData, channelAt_eq_ok.mp found, made, rfl⟩

/-- What a removal that returns has done. -/
theorem handlePendingRemove_cases {next : EventLoop Data}
    (taken : loop.handlePendingRemove dispatcher fd channel = .ok (result, next)) :
    next = loop ∧ (0 ≤ fd → loop.channelMap.nentries ≤ fd) ∨
      ∃ number mapped result dispatcherData, 0 ≤ fd ∧ fd < loop.channelMap.nentries ∧
        loop.channelMap.lookup fd.toNat = some number ∧ loop.channels[number]? = some mapped ∧
        dispatcher.del loop.dispatcherData mapped = .ok (result, dispatcherData) ∧
        next = { loop with
          dispatcherData
          channelMap := loop.channelMap.write fd.toNat none } := by
  unfold handlePendingRemove at taken
  obtain ⟨given, found, taken⟩ := bind_eq_ok.mp taken
  split at taken
  · cases taken
  split at taken
  case isTrue negative =>
    cases taken
    exact .inl ⟨rfl, fun positive => by omega⟩
  split at taken
  case isTrue beyond =>
    cases taken
    exact .inl ⟨rfl, fun _ => beyond⟩
  case isFalse positive inside =>
    obtain ⟨entry, read, taken⟩ := bind_eq_ok.mp taken
    rw [ChannelMap.read_ok (by omega), Except.ok.injEq] at read
    cases entry with
    | none => cases taken
    | some number =>
      obtain ⟨mapped, known, taken⟩ := bind_eq_ok.mp taken
      obtain ⟨⟨code, dispatcherData⟩, deleted, taken⟩ := bind_eq_ok.mp taken
      cases taken
      exact .inr ⟨number, mapped, code, dispatcherData, by omega, by omega, read,
        channelAt_eq_ok.mp known, deleted, rfl⟩

/-- What an update that returns has done. -/
theorem handlePendingUpdate_cases {next : EventLoop Data} {result : Option Int}
    (taken : loop.handlePendingUpdate dispatcher fd channel = .ok (result, next)) :
    next = loop ∨ ∃ updated result dispatcherData, loop.channels[channel]? = some updated ∧
      dispatcher.update loop.dispatcherData updated = .ok (result, dispatcherData) ∧
      next = { loop with dispatcherData } := by
  unfold handlePendingUpdate at taken
  split at taken
  case isTrue =>
    cases taken
    exact .inl rfl
  case isFalse =>
    obtain ⟨entry, _, taken⟩ := bind_eq_ok.mp taken
    cases entry with
    | none =>
      cases taken
      exact .inl rfl
    | some number =>
      obtain ⟨updated, found, taken⟩ := bind_eq_ok.mp taken
      obtain ⟨⟨code, dispatcherData⟩, made, taken⟩ := bind_eq_ok.mp taken
      cases taken
      exact .inr ⟨updated, code, dispatcherData, channelAt_eq_ok.mp found, made, rfl⟩

end EventLoop

end Yolanda.Lib
