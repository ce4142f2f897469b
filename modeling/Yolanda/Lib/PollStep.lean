import Yolanda.Foundation.Run
import Yolanda.Lib.PollDispatcher

/-! The slots of the poll dispatcher and the table of channels follow each other as long as
the slots suffice. -/

namespace Yolanda.Lib

open App (Channel)
open Foundation

/-- The channels a loop is used with. They have descriptors of their own. -/
structure ChannelSet where
  channels : List Channel
  distinct : (channels.map Channel.fd).Nodup
  positive : ∀ channel ∈ channels, 0 ≤ channel.fd

/-- The operations of a loop. The channel is given by its place. -/
inductive Operation where
  /-- `memory` says whether `realloc` succeeds if it is called. -/
  | add (channel : Nat) (memory : Bool)
  /-- The events of the channel change before. -/
  | update (channel : Nat) (events : BitVec 32)
  | remove (channel : Nat)
  deriving DecidableEq, Repr

namespace EventLoop

def start (memory : PollSet) (given : ChannelSet) : EventLoop PollSet :=
  { dispatcherData := .init memory
    channels := given.channels
    channelMap := ⟨[]⟩ }

end EventLoop

/-- One operation of a loop with `poll_dispatcher`. -/
def operate (loop : EventLoop PollSet) : Operation → Except Stop (EventLoop PollSet)
  | .add channel memory => do
    let added ← loop.channelAt channel
    let (_, loop) ← loop.handlePendingAdd pollDispatcher memory added.fd channel
    return loop
  | .update channel events => do
    let loop := loop.setEvents channel events
    let updated ← loop.channelAt channel
    let (_, loop) ← loop.handlePendingUpdate pollDispatcher updated.fd channel
    return loop
  | .remove channel => do
    let removed ← loop.channelAt channel
    let (_, loop) ← loop.handlePendingRemove pollDispatcher removed.fd channel
    return loop

/-- The descriptors and events of the slots that are not free. -/
def PollSet.pairs (set : PollSet) : Set (Int × BitVec 16) :=
  {pair | ∃ slot ∈ set.eventSet, 0 ≤ slot.fd ∧ pair = (slot.fd, slot.events)}

/-- The descriptors and events of the channels in the table. -/
def EventLoop.pairs (loop : EventLoop PollSet) : Set (Int × BitVec 16) :=
  {pair | ∃ fd number channel, loop.channelMap.lookup fd = some number ∧
    loop.channels[number]? = some channel ∧ pair = (channel.fd, pollEvents channel)}

structure InStep (loop : EventLoop PollSet) : Prop where
  same : loop.dispatcherData.pairs = loop.pairs
  single : (loop.dispatcherData.eventSet.filterMap Pollfd.key).Nodup

/-- The channel has the entry of its descriptor. -/
def Registered (loop : EventLoop PollSet) (channel : Channel) : Prop :=
  loop.channelMap.lookup channel.fd.toNat ≠ none

/-- An addition of a channel that is not registered does not get to the slots for want of
memory, or finds fewer than `INIT_POLL_SIZE` registered channels. An update is one of an
entry, and a removal is not one of an empty entry. -/
def Honoured (loop : EventLoop PollSet) : Operation → Prop
  | .add number memory => ∃ channel, loop.channels[number]? = some channel ∧
    (Registered loop channel ∨ channel.fd < 2 ^ 27 ∧
      (loop.channelMap.nentries ≤ channel.fd ∧ memory = false ∨
        loop.channelMap.keys.length < initPollSize))
  | .update number _ => ∃ channel, loop.channels[number]? = some channel ∧
    channel.fd < loop.channelMap.nentries
  | .remove number => ∃ channel, loop.channels[number]? = some channel ∧
    (channel.fd < loop.channelMap.nentries → Registered loop channel)

namespace EventLoop

variable {loop next : EventLoop PollSet} {given : ChannelSet} {number : Nat} {channel : Channel}

/-- The events to watch a descriptor for: those of the channel of its entry. -/
def wanted (loop : EventLoop PollSet) (fd : Nat) : Option (BitVec 16) :=
  (loop.channelMap.lookup fd).bind fun number => loop.channels[number]?.map pollEvents

/-- The slots watch what the table wants, and the channels keep their descriptors. -/
structure Good (given : ChannelSet) (loop : EventLoop PollSet) : Prop where
  fds : loop.channels.map Channel.fd = given.channels.map Channel.fd
  grown : loop.channelMap.Grown
  known : ∀ fd number, loop.channelMap.lookup fd = some number →
    ∃ channel, loop.channels[number]? = some channel ∧ channel.fd = fd
  watches : loop.dispatcherData.Watches loop.wanted

theorem start_good (memory : PollSet) (given : ChannelSet) : (start memory given).Good given := by
  constructor
  · rfl
  · exact .inl rfl
  · exact nofun
  · exact PollSet.init_watches memory

namespace Good

theorem positive (good : loop.Good given) (found : loop.channels[number]? = some channel) :
    0 ≤ channel.fd := by
  have member := List.mem_map_of_mem (f := Channel.fd) (List.mem_of_getElem? found)
  rw [good.fds] at member
  obtain ⟨original, inside, same⟩ := List.mem_map.mp member
  exact same ▸ given.positive original inside

/-- A descriptor tells which channel it is. -/
theorem unique {other : Nat} {second : Channel} (good : loop.Good given)
    (found : loop.channels[number]? = some channel)
    (again : loop.channels[other]? = some second) (same : channel.fd = second.fd) :
    number = other := by
  have distinct := given.distinct
  rw [← good.fds] at distinct
  have inside : number < (loop.channels.map Channel.fd).length := by
    rw [List.length_map]
    exact (List.getElem?_eq_some_iff.mp found).1
  apply (List.getElem?_inj inside distinct).mp
  rw [List.getElem?_map, List.getElem?_map, found, again, Option.map_some, Option.map_some, same]

theorem wanted_iff (good : loop.Good given) (fd : Nat) :
    loop.wanted fd ≠ none ↔ loop.channelMap.lookup fd ≠ none := by
  unfold wanted
  cases entry : loop.channelMap.lookup fd with
  | none => simp
  | some number =>
    obtain ⟨channel, found, _⟩ := good.known fd number entry
    rw [Option.bind_some, found]
    exact ⟨nofun, nofun⟩

/-- The entry of the descriptor of a channel is this channel. -/
theorem entry (good : loop.Good given) (found : loop.channels[number]? = some channel)
    (registered : Registered loop channel) :
    loop.channelMap.lookup channel.fd.toNat = some number := by
  obtain ⟨other, entry⟩ := Option.ne_none_iff_exists'.mp registered
  obtain ⟨second, known, same⟩ := good.known _ other entry
  have positive := good.positive found
  rw [entry, good.unique found known (by omega)]

theorem mem_keys (good : loop.Good given) (fd : Nat) :
    fd ∈ loop.channelMap.keys ↔ loop.wanted fd ≠ none :=
  ChannelMap.mem_keys.trans (good.wanted_iff fd).symm

theorem room_iff (good : loop.Good given) :
    (∃ slot ∈ loop.dispatcherData.eventSet, slot.key = none) ↔
      loop.channelMap.keys.length < initPollSize := by
  rw [← loop.dispatcherData.size]
  exact Tabulates.room_iff good.watches loop.channelMap.keys_nodup good.mem_keys

theorem length_keys_le (good : loop.Good given) :
    loop.channelMap.keys.length ≤ initPollSize := by
  rw [← loop.dispatcherData.size]
  exact Tabulates.length_keys_le good.watches loop.channelMap.keys_nodup good.mem_keys

theorem inStep (good : loop.Good given) : InStep loop := by
  refine ⟨?_, good.watches.single⟩
  ext pair
  constructor
  · rintro ⟨slot, member, held, rfl⟩
    have key : slot.key = some slot.fd.toNat := if_neg (Int.not_lt.mpr held)
    have wants := (good.watches.reads _ _).mpr ⟨slot, member, key, rfl⟩
    obtain ⟨number, entry, asks⟩ := Option.bind_eq_some_iff.mp wants
    obtain ⟨channel, found, events⟩ := Option.map_eq_some_iff.mp asks
    obtain ⟨same, known, fd⟩ := good.known _ number entry
    cases found.symm.trans known
    refine ⟨_, number, channel, entry, found, ?_⟩
    rw [events, fd, Int.toNat_of_nonneg held]
  · rintro ⟨fd, number, channel, entry, found, rfl⟩
    obtain ⟨same, known, place⟩ := good.known fd number entry
    cases found.symm.trans known
    have wants : loop.wanted fd = some (pollEvents channel) := by
      rw [wanted, entry, Option.bind_some, found, Option.map_some]
    obtain ⟨slot, member, key, events⟩ := (good.watches.reads _ _).mp wants
    have held := (slot.key_iff fd).mp key
    exact ⟨slot, member, by omega, by rw [held, events, place]⟩

end Good

/-- To change an entry changes what is wanted there. -/
theorem wanted_update (loop : EventLoop PollSet) (dispatcherData : PollSet) {map : ChannelMap}
    {fd : Nat} {entry : Option Nat}
    (changed : map.lookup = Function.update loop.channelMap.lookup fd entry) :
    ({ loop with dispatcherData, channelMap := map } : EventLoop PollSet).wanted =
      Function.update loop.wanted fd
        (entry.bind fun number => loop.channels[number]?.map pollEvents) := by
  funext asked
  unfold wanted
  rw [changed]
  by_cases here : asked = fd
  · rw [here, Function.update_self, Function.update_self]
  · rw [Function.update_of_ne here, Function.update_of_ne here]

/-- The events of a channel matter where it has its entry. -/
theorem Good.wanted_setEvents (good : loop.Good given)
    (found : loop.channels[number]? = some channel) (events : BitVec 32) :
    (loop.setEvents number events).wanted = Function.update loop.wanted channel.fd.toNat
      ((loop.channelMap.lookup channel.fd.toNat).map fun _ =>
        pollEvents { channel with events }) := by
  funext asked
  have here : (loop.setEvents number events).wanted asked =
      (loop.channelMap.lookup asked).bind fun other =>
        (loop.setEvents number events).channels[other]?.map pollEvents := rfl
  rw [here]
  by_cases same : asked = channel.fd.toNat
  · subst same
    rw [Function.update_self]
    cases entry : loop.channelMap.lookup channel.fd.toNat with
    | none => rfl
    | some other =>
      cases entry.symm.trans (good.entry found (by rw [Registered, entry]; exact nofun))
      rw [Option.bind_some, getElem?_setEvents, found, Option.map_some, if_pos rfl,
        Option.map_some, Option.map_some]
  · rw [Function.update_of_ne same, wanted]
    cases entry : loop.channelMap.lookup asked with
    | none => rfl
    | some other =>
      have differ : number ≠ other := by
        rintro rfl
        obtain ⟨second, known, fd⟩ := good.known asked number entry
        cases found.symm.trans known
        omega
      rw [Option.bind_some, Option.bind_some, getElem?_setEvents]
      simp only [if_neg differ, Option.map_id']

theorem Good.setEvents_fds (good : loop.Good given) (number : Nat) (events : BitVec 32) :
    (loop.setEvents number events).channels.map Channel.fd = given.channels.map Channel.fd := by
  rw [← good.fds]
  apply List.ext_getElem?
  intro other
  rw [List.getElem?_map, List.getElem?_map, getElem?_setEvents, Option.map_map]
  congr 1
  funext channel
  by_cases same : number = other
  · simp only [Function.comp_apply, if_pos same]
  · simp only [Function.comp_apply, if_neg same]

theorem Good.setEvents_known (good : loop.Good given) (events : BitVec 32) (fd other : Nat)
    (entry : loop.channelMap.lookup fd = some other) :
    ∃ channel, (loop.setEvents number events).channels[other]? = some channel ∧
      channel.fd = fd := by
  obtain ⟨channel, found, place⟩ := good.known fd other entry
  rw [getElem?_setEvents, found]
  refine ⟨_, rfl, ?_⟩
  by_cases same : number = other
  · simp only [if_pos same, place]
  · simp only [if_neg same, place]

/-- An addition that finds a slot. -/
theorem Good.add {map : ChannelMap} (good : loop.Good given)
    (found : loop.channels[number]? = some channel)
    (fresh : loop.channelMap.lookup channel.fd.toNat = none) (grown : map.Grown)
    (changed : map.lookup =
      Function.update loop.channelMap.lookup channel.fd.toNat (some number))
    (room : loop.channelMap.keys.length < initPollSize) :
    ({ loop with
      dispatcherData := loop.dispatcherData.add channel
      channelMap := map } : EventLoop PollSet).Good given := by
  have positive := good.positive found
  have unwanted : loop.wanted channel.fd.toNat = none := by
    by_contra defined
    exact (good.wanted_iff _).mp defined fresh
  have watches := PollSet.add_watches good.watches positive unwanted (good.room_iff.mpr room)
  refine ⟨good.fds, grown, ?_, ?_⟩
  · intro fd other entry
    by_cases same : fd = channel.fd.toNat
    · rw [same] at entry ⊢
      rw [changed, Function.update_self, Option.some.injEq] at entry
      exact ⟨channel, entry ▸ found, (Int.toNat_of_nonneg positive).symm⟩
    · rw [changed, Function.update_of_ne same] at entry
      exact good.known fd other entry
  · rw [wanted_update loop _ changed, Option.bind_some, found, Option.map_some]
    exact watches

theorem Good.remove (good : loop.Good given)
    (found : loop.channels[number]? = some channel) (registered : Registered loop channel) :
    ({ loop with
      dispatcherData := loop.dispatcherData.del channel
      channelMap := loop.channelMap.write channel.fd.toNat none } : EventLoop PollSet).Good
        given := by
  have changed := ChannelMap.lookup_write (ChannelMap.lt_of_lookup registered) none
  refine ⟨good.fds, good.grown.write _ _, ?_, ?_⟩
  · intro fd other entry
    rw [changed] at entry
    by_cases same : fd = channel.fd.toNat
    · rw [same, Function.update_self] at entry
      cases entry
    · rw [Function.update_of_ne same] at entry
      exact good.known fd other entry
  · rw [wanted_update loop _ changed]
    exact PollSet.del_watches good.watches (good.positive found)

/-- An update of a channel with an entry. -/
theorem Good.update (good : loop.Good given)
    (found : loop.channels[number]? = some channel) (registered : Registered loop channel)
    (events : BitVec 32) :
    ({ loop.setEvents number events with
      dispatcherData := loop.dispatcherData.update { channel with events } } :
        EventLoop PollSet).Good given := by
  refine ⟨good.setEvents_fds number events, good.grown, good.setEvents_known events, ?_⟩
  have changed := good.wanted_setEvents found events
  rw [good.entry found registered, Option.map_some] at changed
  have positive := good.positive found
  have watches := @PollSet.update_watches _ { channel with events } _ good.watches positive
    ((good.wanted_iff _).mpr registered)
  rw [← changed] at watches
  exact watches

/-- The events of a channel without an entry are watched by nobody. -/
theorem Good.forget (good : loop.Good given)
    (found : loop.channels[number]? = some channel)
    (empty : loop.channelMap.lookup channel.fd.toNat = none) (events : BitVec 32) :
    (loop.setEvents number events).Good given := by
  refine ⟨good.setEvents_fds number events, good.grown, good.setEvents_known events, ?_⟩
  have changed := good.wanted_setEvents found events
  have unwanted : loop.wanted channel.fd.toNat = none := by
    by_contra defined
    exact (good.wanted_iff _).mp defined empty
  rw [empty, Option.map_none, ← unwanted, Function.update_eq_self] at changed
  rw [changed]
  exact good.watches

private theorem advance_add (good : loop.Good given)
    (found : loop.channels[number]? = some channel) {memory : Bool}
    (possible : Registered loop channel ∨ channel.fd < 2 ^ 27 ∧
      (loop.channelMap.nentries ≤ channel.fd ∧ memory = false ∨
        loop.channelMap.keys.length < initPollSize)) :
    ∃ next, operate loop (.add number memory) = .ok next ∧ next.Good given ∧
      (memory = true → Registered next channel) ∧
      ∀ fd, loop.channelMap.lookup fd ≠ none → next.channelMap.lookup fd ≠ none := by
  have positive := good.positive found
  by_cases registered : Registered loop channel
  · refine ⟨loop, ?_, good, fun _ => registered, fun _ held => held⟩
    simp only [operate, bind, Except.bind, channelAt_ok found,
      handlePendingAdd_registered positive registered]
    rfl
  · obtain ⟨small, place⟩ := possible.resolve_left registered
    have fresh := not_not.mp registered
    by_cases refused : loop.channelMap.nentries ≤ channel.fd ∧ memory = false
    · obtain ⟨beyond, rfl⟩ := refused
      refine ⟨loop, ?_, good, nofun, fun _ held => held⟩
      simp only [operate, bind, Except.bind, channelAt_ok found,
        handlePendingAdd_refused good.grown positive small beyond]
      rfl
    · have room := place.resolve_left refused
      have space (beyond : loop.channelMap.nentries ≤ channel.fd) : memory = true :=
        Bool.eq_true_of_not_eq_false fun refuses => refused ⟨beyond, refuses⟩
      obtain ⟨map, grown, changed, success⟩ := @handlePendingAdd_fresh _ pollDispatcher _ _ _ _ _ 0 _
        good.grown positive small fresh space found rfl
      refine ⟨_, ?_, good.add found fresh grown changed room, ?_, ?_⟩
      · simp only [operate, bind, Except.bind, channelAt_ok found, success]
        rfl
      · intro _
        simp only [Registered, changed, Function.update_self]
        exact nofun
      · intro fd held
        have differ : fd ≠ channel.fd.toNat := by
          rintro rfl
          exact held fresh
        simp only [changed, Function.update_of_ne differ]
        exact held

private theorem advance_update (good : loop.Good given)
    (found : loop.channels[number]? = some channel) (events : BitVec 32)
    (inside : channel.fd < loop.channelMap.nentries) :
    ∃ next, operate loop (.update number events) = .ok next ∧ next.Good given := by
  have positive := good.positive found
  have changed : (loop.setEvents number events).channels[number]? =
      some { channel with events } := by
    rw [getElem?_setEvents, found, Option.map_some, if_pos rfl]
  by_cases registered : Registered loop channel
  · refine ⟨_, ?_, good.update found registered events⟩
    have success := @handlePendingUpdate_registered _ pollDispatcher (loop.setEvents number events)
      channel.fd number _ 0 _ positive registered changed rfl
    simp only [operate, bind, Except.bind, channelAt_ok changed, success]
    rfl
  · have empty := not_not.mp registered
    refine ⟨_, ?_, good.forget found empty events⟩
    have success := @handlePendingUpdate_empty _ pollDispatcher (loop.setEvents number events)
      channel.fd number positive inside empty
    simp only [operate, bind, Except.bind, channelAt_ok changed, success]
    rfl

private theorem advance_remove (good : loop.Good given)
    (found : loop.channels[number]? = some channel)
    (possible : channel.fd < loop.channelMap.nentries → Registered loop channel) :
    ∃ next, operate loop (.remove number) = .ok next ∧ next.Good given := by
  have positive := good.positive found
  by_cases inside : channel.fd < loop.channelMap.nentries
  · have registered := possible inside
    refine ⟨_, ?_, good.remove found registered⟩
    have success := @handlePendingRemove_registered _ pollDispatcher _ _ _ _ 0 _ found positive _
      (good.entry found registered) found rfl
    simp only [operate, bind, Except.bind, channelAt_ok found, success]
    rfl
  · refine ⟨loop, ?_, good⟩
    simp only [operate, bind, Except.bind, channelAt_ok found,
      handlePendingRemove_beyond found positive (Int.not_lt.mp inside)]
    rfl

theorem operate_advance {operation : Operation} (good : loop.Good given)
    (honoured : Honoured loop operation) :
    ∃ next, operate loop operation = .ok next ∧ next.Good given := by
  cases operation with
  | add number memory =>
    obtain ⟨channel, found, possible⟩ := honoured
    obtain ⟨next, taken, kept, _⟩ := advance_add good found possible
    exact ⟨next, taken, kept⟩
  | update number events =>
    obtain ⟨channel, found, inside⟩ := honoured
    exact advance_update good found events inside
  | remove number =>
    obtain ⟨channel, found, possible⟩ := honoured
    exact advance_remove good found possible

/-- With all slots taken an addition is in the table and not in the slots. -/
private theorem fall_full {map : ChannelMap} (good : loop.Good given)
    (found : loop.channels[number]? = some channel)
    (fresh : loop.channelMap.lookup channel.fd.toNat = none)
    (changed : map.lookup =
      Function.update loop.channelMap.lookup channel.fd.toNat (some number))
    (full : ¬ loop.channelMap.keys.length < initPollSize) :
    ¬ InStep ({ loop with
      dispatcherData := loop.dispatcherData.add channel
      channelMap := map } : EventLoop PollSet) := by
  intro inStep
  have taken : ∀ slot ∈ loop.dispatcherData.eventSet, slot.key ≠ none :=
    fun slot member free => full (good.room_iff.mp ⟨slot, member, free⟩)
  have same := inStep.same
  rw [PollSet.add_full taken] at same
  have entry : map.lookup channel.fd.toNat = some number := by
    rw [changed, Function.update_self]
  have asked := same.superset ⟨_, number, channel, entry, found, rfl⟩
  obtain ⟨slot, member, held, pair⟩ := asked
  have key : slot.key = some channel.fd.toNat := by
    rw [slot.key_iff, Int.toNat_of_nonneg (good.positive found)]
    exact (congrArg Prod.fst pair).symm
  exact (good.wanted_iff _).mp (Tabulates.ne_none good.watches member key) fresh

theorem operate_fall {operation : Operation} (good : loop.Good given)
    (unmet : ¬ Honoured loop operation) (taken : operate loop operation = .ok next) :
    ¬ InStep next := by
  cases operation with
  | add number memory =>
    cases found : loop.channels[number]? with
    | none => simp [operate, channelAt, found, bind, Except.bind] at taken
    | some channel =>
      have positive := good.positive found
      have unregistered : ¬ Registered loop channel :=
        fun registered => unmet ⟨channel, found, .inl registered⟩
      simp only [operate, channelAt_ok found, bind, Except.bind] at taken
      by_cases small : channel.fd < 2 ^ 27
      · have place (room) := unmet ⟨channel, found, .inr ⟨small, room⟩⟩
        have space (beyond : loop.channelMap.nentries ≤ channel.fd) : memory = true :=
          Bool.eq_true_of_not_eq_false fun refuses => place (.inl ⟨beyond, refuses⟩)
        obtain ⟨map, grown, changed, success⟩ := @handlePendingAdd_fresh _ pollDispatcher _ _ _ _ _ 0 _
          good.grown positive small (not_not.mp unregistered) space found rfl
        rw [success] at taken
        cases taken
        exact fall_full good found (not_not.mp unregistered) changed fun room => place (.inr room)
      · rw [handlePendingAdd_overflow good.grown (Int.not_lt.mp small)] at taken
        cases taken
  | update number events =>
    cases found : loop.channels[number]? with
    | none => simp [operate, channelAt, getElem?_setEvents, found, bind, Except.bind] at taken
    | some channel =>
      have beyond := Int.not_lt.mp fun inside => unmet ⟨channel, found, inside⟩
      have changed : (loop.setEvents number events).channels[number]? =
          some { channel with events } := by
        rw [getElem?_setEvents, found, Option.map_some, if_pos rfl]
      have failure := @handlePendingUpdate_beyond _ pollDispatcher (loop.setEvents number events)
        channel.fd number (good.positive found) beyond
      simp only [operate, channelAt_ok changed, bind, Except.bind, failure] at taken
      cases taken
  | remove number =>
    cases found : loop.channels[number]? with
    | none => simp [operate, channelAt, found, bind, Except.bind] at taken
    | some channel =>
      have inside : channel.fd < loop.channelMap.nentries := by
        by_contra beyond
        exact unmet ⟨channel, found, fun inside => absurd inside beyond⟩
      have empty : loop.channelMap.lookup channel.fd.toNat = none := by
        by_contra registered
        exact unmet ⟨channel, found, fun _ => registered⟩
      simp only [operate, channelAt_ok found, bind, Except.bind,
        handlePendingRemove_empty found (good.positive found) inside empty] at taken
      cases taken

theorem Good.throughout_iff {operations : List Operation} (good : loop.Good given) :
    Throughout operate InStep loop operations ↔ Along operate Honoured loop operations :=
  throughout_iff_along (fun _ _ good honoured => operate_advance good honoured)
    (fun _ _ _ good unmet taken => operate_fall good unmet taken) (fun _ good => good.inStep) good

end EventLoop

/-- In every state of a run the slots of the poll dispatcher hold the channels of the table
exactly when each addition to the table finds a slot. -/
theorem poll_in_step_iff (memory : PollSet) (given : ChannelSet) (operations : List Operation) :
    Throughout operate InStep (.start memory given) operations ↔
      Along operate Honoured (.start memory given) operations :=
  (EventLoop.start_good memory given).throughout_iff

/-- Additions that are honoured register their channels. -/
theorem run_adds {given : ChannelSet} {loop : EventLoop PollSet} {numbers : List Nat}
    (good : loop.Good given)
    (along : Along operate Honoured loop (numbers.map (.add · true))) :
    ∃ final : EventLoop PollSet, final.Good given ∧
      (∀ fd, loop.channelMap.lookup fd ≠ none → final.channelMap.lookup fd ≠ none) ∧
      ∀ number ∈ numbers, ∀ fd, (given.channels.map Channel.fd)[number]? = some fd →
        final.channelMap.lookup fd.toNat ≠ none := by
  induction numbers generalizing loop with
  | nil => exact ⟨loop, good, fun _ held => held, nofun⟩
  | cons number numbers ih =>
    obtain ⟨channel, found, possible⟩ := along.1
    obtain ⟨next, taken, kept, registered, stays⟩ := EventLoop.advance_add good found possible
    obtain ⟨final, ends, later, rest⟩ := ih kept (along.2 next taken)
    refine ⟨final, ends, fun fd held => later fd (stays fd held), ?_⟩
    intro other member fd place
    rcases List.mem_cons.mp member with rfl | behind
    · have same : fd = channel.fd := by
        rw [← good.fds, List.getElem?_map, found] at place
        exact (Option.some.inj place).symm
      exact later _ (same ▸ registered rfl)
    · exact rest other behind fd place

/-- More channels than slots cannot all be added and watched. -/
theorem too_many_channels (memory : PollSet) (given : ChannelSet)
    (many : initPollSize < given.channels.length) :
    ¬ Throughout operate InStep (.start memory given)
      ((List.range given.channels.length).map (.add · true)) := by
  intro always
  have start := EventLoop.start_good memory given
  obtain ⟨final, good, _, registered⟩ := run_adds start (start.throughout_iff.mp always)
  have distinct : ((given.channels.map Channel.fd).map Int.toNat).Nodup := by
    apply List.Nodup.map_on ?_ given.distinct
    intro first member second other same
    obtain ⟨channel, inside, rfl⟩ := List.mem_map.mp member
    obtain ⟨another, within, rfl⟩ := List.mem_map.mp other
    have positive := given.positive channel inside
    have positive' := given.positive another within
    omega
  have kept : (given.channels.map Channel.fd).map Int.toNat ⊆ final.channelMap.keys := by
    intro key member
    obtain ⟨fd, inside, rfl⟩ := List.mem_map.mp member
    obtain ⟨number, within, place⟩ := List.getElem_of_mem inside
    have found := List.getElem?_eq_some_iff.mpr ⟨within, place⟩
    rw [List.length_map] at within
    exact ChannelMap.mem_keys.mpr (registered number (List.mem_range.mpr within) fd found)
  have fewer := List.Nodup.length_le_of_subset distinct kept
  rw [List.length_map, List.length_map] at fewer
  have room := good.length_keys_le
  omega

/-- A channel more than there are slots. -/
def manyChannels : ChannelSet where
  channels := (List.range (initPollSize + 1)).map fun fd => App.connectionChannel fd fd
  distinct := by
    rw [List.map_map]
    exact List.nodup_range.map fun _ _ same => Int.ofNat.inj same
  positive := by
    intro channel member
    obtain ⟨fd, _, rfl⟩ := List.mem_map.mp member
    exact Int.natCast_nonneg fd

/-- The last channel is registered, and no slot watches it. -/
theorem last_channel_unwatched :
    ¬ Throughout operate InStep
      (.start ⟨List.replicate initPollSize ⟨0, 0, 0⟩, List.length_replicate⟩ manyChannels)
      ((List.range (initPollSize + 1)).map (.add · true)) := by
  have many : manyChannels.channels.length = initPollSize + 1 := by
    rw [manyChannels, List.length_map, List.length_range]
  rw [← many]
  exact too_many_channels _ manyChannels (by omega)

end Yolanda.Lib
