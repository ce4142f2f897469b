import Yolanda.Foundation.Run
import Yolanda.Lib.EventLoop

/-! The table of a loop of the C library beside the finite map of its additions and removals. -/

namespace Yolanda.Lib

open Foundation
open App (Channel)

/-- A pending addition, with the answer of `realloc` should it be called, or a pending
removal. -/
inductive TableCall where
  | add (fd : Int) (channel : Nat) (memory : Bool)
  | remove (fd : Int) (channel1 : Nat)

/-- The descriptor a call is about. -/
def TableCall.fd : TableCall → Int
  | .add fd _ _ => fd
  | .remove fd _ => fd

/-- A finite map, where the first addition wins. -/
def addFirst (registered : Nat → Option Nat) (fd channel : Nat) : Nat → Option Nat :=
  if registered fd = none then Function.update registered fd (some channel) else registered

/-- A loop, and the finite map of the calls that were made. -/
structure TableHistory (Data : Type) where
  loop : EventLoop Data
  registered : Nat → Option Nat

namespace TableHistory

variable {Data : Type}

/-- A loop behind `map_init`. -/
def start (dispatcherData : Data) (channels : List Channel) : TableHistory Data where
  loop := { dispatcherData, channels, channelMap := ⟨[]⟩ }
  registered _ := none

/-- An addition that needs a larger table and does not get it. -/
def Refused (loop : EventLoop Data) : TableCall → Prop
  | .add fd _ memory => loop.channelMap.nentries ≤ fd ∧ memory = false
  | .remove _ _ => False

instance (loop : EventLoop Data) (call : TableCall) : Decidable (Refused loop call) :=
  match call with
  | .add _ _ _ => inferInstanceAs (Decidable (_ ∧ _))
  | .remove _ _ => inferInstanceAs (Decidable False)

/-- The finite map after a call. -/
def mapAfter (history : TableHistory Data) (call : TableCall) : Nat → Option Nat :=
  if Refused history.loop call then history.registered
  else
    match call with
    | .add fd channel _ => addFirst history.registered fd.toNat channel
    | .remove fd _ => Function.update history.registered fd.toNat none

variable (dispatcher : EventDispatcher Data)

/-- The handler of a call. -/
def handle (loop : EventLoop Data) : TableCall → Except Stop (Int × EventLoop Data)
  | .add fd channel memory => loop.handlePendingAdd dispatcher memory fd channel
  | .remove fd channel1 => loop.handlePendingRemove dispatcher fd channel1

def step (history : TableHistory Data) (call : TableCall) : Except Stop (TableHistory Data) := do
  let (_, loop) ← handle dispatcher history.loop call
  return { loop, registered := history.mapAfter call }

/-- Channels are added under descriptors below `2 ^ 27`, and removed under their own when they
are registered. -/
def Permitted (history : TableHistory Data) : TableCall → Prop
  | .add fd channel _ => 0 ≤ fd ∧ fd < 2 ^ 27 ∧ channel < history.loop.channels.length
  | .remove fd channel1 => 0 ≤ fd ∧ history.registered fd.toNat ≠ none ∧
      ∃ given, history.loop.channels[channel1]? = some given ∧ given.fd = fd

/-- Every entry is that of the finite map, which has no other, and the size has doubled from
32. -/
structure Refines (history : TableHistory Data) : Prop where
  entry : ∀ fd < history.loop.channelMap.nentries,
    history.loop.channelMap.entries[fd]? = some (history.registered fd)
  inside : ∀ fd, history.registered fd ≠ none → fd < history.loop.channelMap.nentries
  size : history.loop.channelMap.nentries = 0 ∨
    ∃ doublings, history.loop.channelMap.nentries = 32 * 2 ^ doublings

/-- A call that returns leaves the other entries, has empty entries in what it adds to the
table, and changes nothing and returns -1 if the table cannot grow. -/
structure KeepsEntries (before : EventLoop Data) (call : TableCall) (code : Int)
    (after : EventLoop Data) : Prop where
  survives : ∀ fd : Nat, fd < before.channelMap.nentries → call.fd ≠ fd →
    after.channelMap.entries[fd]? = before.channelMap.entries[fd]?
  created : ∀ fd : Nat, before.channelMap.nentries ≤ fd → fd < after.channelMap.nentries →
    call.fd ≠ fd → after.channelMap.entries[fd]? = some none
  refused : Refused before call → code = -1 ∧ after = before

/-- The handler of a call keeps the entries, whatever it returns. -/
def CallKeeps (history : TableHistory Data) (call : TableCall) : Prop :=
  ∀ code after, handle dispatcher history.loop call = .ok (code, after) →
    KeepsEntries history.loop call code after

/-- The table can grow, has the entries of the finite map, and these are channels. -/
structure Good (history : TableHistory Data) : Prop where
  grown : history.loop.channelMap.Grown
  same : history.loop.channelMap.lookup = history.registered
  known : ∀ fd number, history.registered fd = some number → number < history.loop.channels.length

end TableHistory

theorem ChannelMap.getElem?_entries {map : ChannelMap} {fd : Nat} (inside : fd < map.nentries) :
    map.entries[fd]? = some (map.lookup fd) := by
  unfold lookup
  rw [List.getElem?_eq_getElem inside]
  rfl

namespace TableHistory

variable {Data : Type} {dispatcher : EventDispatcher Data} {history next : TableHistory Data}
variable {channels : List Channel} {call : TableCall} {fd : Int} {channel : Nat} {memory : Bool}
variable {code : Int} {after : EventLoop Data}

theorem start_good (dispatcherData : Data) (channels : List Channel) :
    (start dispatcherData channels).Good := by
  refine ⟨.inl rfl, ?_, ?_⟩
  · funext fd
    exact ChannelMap.lookup_of_le (Nat.zero_le fd)
  · intro fd number registered
    cases registered

theorem Good.refines (good : history.Good) : history.Refines := by
  constructor
  · intro fd inside
    rw [ChannelMap.getElem?_entries inside, good.same]
  · intro fd registered
    rw [← good.same] at registered
    exact ChannelMap.lt_of_lookup registered
  · rcases good.grown with empty | ⟨doublings, _, size⟩
    · exact .inl empty
    · exact .inr ⟨doublings, size⟩

/-- What a larger table with the same entries keeps. -/
private theorem keeps_of_lookup {loop : EventLoop Data} {call : TableCall}
    (larger : loop.channelMap.nentries ≤ after.channelMap.nentries)
    (same : ∀ fd : Nat, call.fd ≠ fd → after.channelMap.lookup fd = loop.channelMap.lookup fd)
    (refused : Refused loop call → code = -1 ∧ after = loop) :
    KeepsEntries loop call code after := by
  constructor
  · intro fd inside other
    rw [ChannelMap.getElem?_entries inside,
      ChannelMap.getElem?_entries (Nat.lt_of_lt_of_le inside larger), same fd other]
  · intro fd beyond inside other
    rw [ChannelMap.getElem?_entries inside, same fd other, ChannelMap.lookup_of_le beyond]
  · exact refused

/-- Without memory an addition behind the table returns -1. -/
private theorem handle_refused {loop : EventLoop Data} (grown : loop.channelMap.Grown)
    (positive : 0 ≤ fd) (small : fd < 2 ^ 27) (refused : Refused loop (.add fd channel memory)) :
    handle dispatcher loop (.add fd channel memory) = .ok (-1, loop) := by
  obtain ⟨beyond, rfl⟩ := refused
  exact EventLoop.handlePendingAdd_refused grown positive small beyond

theorem Good.add_keeps (good : history.Good) (positive : 0 ≤ fd) (small : fd < 2 ^ 27)
    (taken : handle dispatcher history.loop (.add fd channel memory) = .ok (code, after)) :
    KeepsEntries history.loop (.add fd channel memory) code after := by
  have refused : Refused history.loop (.add fd channel memory) →
      code = -1 ∧ after = history.loop := by
    intro refused
    cases (handle_refused good.grown positive small refused).symm.trans taken
    exact ⟨rfl, rfl⟩
  rcases EventLoop.handlePendingAdd_cases taken with ⟨rfl, _⟩ | ⟨map, _, same, larger, inside, added⟩
  · exact keeps_of_lookup (Nat.le_refl _) (fun _ _ => rfl) refused
  · rcases added with ⟨_, rfl⟩ | ⟨_, _, _, _, _, _, rfl⟩
    · exact keeps_of_lookup larger (fun _ _ => congrFun same _) refused
    · refine keeps_of_lookup ?_ ?_ refused
      · exact Nat.le_trans larger (Nat.le_of_eq (ChannelMap.nentries_write ..).symm)
      · intro other apart
        have distinct : other ≠ fd.toNat := by
          rintro rfl
          exact apart (Int.toNat_of_nonneg positive).symm
        change (map.write fd.toNat (some channel)).lookup other = _
        rw [ChannelMap.lookup_write (by omega), Function.update_of_ne distinct, same]

theorem Good.remove_keeps (taken : handle dispatcher history.loop (.remove fd channel) =
    .ok (code, after)) : KeepsEntries history.loop (.remove fd channel) code after := by
  have unrefused : Refused history.loop (.remove fd channel) →
      code = -1 ∧ after = history.loop := False.elim
  rcases EventLoop.handlePendingRemove_cases taken with ⟨rfl, _⟩ | removed
  · exact keeps_of_lookup (Nat.le_refl _) (fun _ _ => rfl) unrefused
  · obtain ⟨_, _, _, _, positive, inside, _, _, _, rfl⟩ := removed
    refine keeps_of_lookup (Nat.le_of_eq (ChannelMap.nentries_write ..).symm) ?_ unrefused
    intro other apart
    have distinct : other ≠ fd.toNat := by
      rintro rfl
      exact apart (Int.toNat_of_nonneg positive).symm
    change (history.loop.channelMap.write fd.toNat none).lookup other = _
    rw [ChannelMap.lookup_write (by omega), Function.update_of_ne distinct]

theorem Good.call_keeps (good : history.Good) (permitted : history.Permitted call) :
    CallKeeps dispatcher history call := by
  intro code after taken
  cases call with
  | add fd channel memory => exact good.add_keeps permitted.1 permitted.2.1 taken
  | remove fd channel => exact Good.remove_keeps taken

private theorem addFirst_known {registered : Nat → Option Nat} {limit place : Nat}
    (known : ∀ fd number, registered fd = some number → number < limit) (inside : channel < limit) :
    ∀ fd number, addFirst registered place channel fd = some number → number < limit := by
  intro fd number found
  unfold addFirst at found
  split at found
  · by_cases here : fd = place
    · subst here
      rw [Function.update_self] at found
      cases found
      exact inside
    · rw [Function.update_of_ne here] at found
      exact known fd number found
  · exact known fd number found

/-- An addition fails where the dispatcher does. -/
private theorem handlePendingAdd_stops {loop : EventLoop Data} {added : Channel} {stop : Stop}
    (grown : loop.channelMap.Grown) (positive : 0 ≤ fd) (small : fd < 2 ^ 27)
    (fresh : loop.channelMap.lookup fd.toNat = none)
    (room : loop.channelMap.nentries ≤ fd → memory = true)
    (found : loop.channels[channel]? = some added)
    (stops : dispatcher.add loop.dispatcherData added = .error stop) :
    loop.handlePendingAdd dispatcher memory fd channel = .error stop := by
  obtain ⟨larger, _, inside, same, grows⟩ := EventLoop.placeFor grown positive small room
  rw [EventLoop.handlePendingAdd, if_neg (by omega), grows]
  simp only [bind, Except.bind, ChannelMap.read_ok inside, same, fresh,
    EventLoop.channelAt_ok found, stops]

private theorem granted_room {loop : EventLoop Data}
    (granted : ¬ Refused loop (.add fd channel memory)) :
    loop.channelMap.nentries ≤ fd → memory = true := by
  intro beyond
  cases memory with
  | true => rfl
  | false => exact absurd ⟨beyond, rfl⟩ granted

/-- A permitted addition that is not refused is one of the map. -/
theorem Good.add (good : history.Good) (positive : 0 ≤ fd) (small : fd < 2 ^ 27)
    (inside : channel < history.loop.channels.length)
    (granted : ¬ Refused history.loop (.add fd channel memory))
    (taken : handle dispatcher history.loop (.add fd channel memory) = .ok (code, after)) :
    Good ⟨after, addFirst history.registered fd.toNat channel⟩ := by
  have room := granted_room granted
  have same := good.same
  cases found : history.registered fd.toNat with
  | some number =>
    have registered : history.loop.channelMap.lookup fd.toNat ≠ none := by
      rw [same, found]
      exact Option.some_ne_none number
    cases (EventLoop.handlePendingAdd_registered positive registered).symm.trans taken
    have kept : addFirst history.registered fd.toNat channel = history.registered :=
      if_neg (by rw [found]; exact Option.some_ne_none number)
    rw [kept]
    exact ⟨good.grown, same, good.known⟩
  | none =>
    have fresh : history.loop.channelMap.lookup fd.toNat = none := by rw [same, found]
    have entered : addFirst history.registered fd.toNat channel =
        Function.update history.registered fd.toNat (some channel) := if_pos found
    have object := List.getElem?_eq_getElem inside
    cases made : dispatcher.add history.loop.dispatcherData history.loop.channels[channel] with
    | error stop =>
      have stops := handlePendingAdd_stops good.grown positive small fresh room object made
      cases stops.symm.trans taken
    | ok answer =>
      obtain ⟨map, grown, lookup, returns⟩ := EventLoop.handlePendingAdd_fresh good.grown positive
        small fresh room object made
      cases returns.symm.trans taken
      refine ⟨grown, ?_, addFirst_known good.known inside⟩
      rw [entered, ← same]
      exact lookup

/-- A removal of a registered channel is one of the map. -/
theorem Good.remove (good : history.Good) (positive : 0 ≤ fd)
    (registered : history.registered fd.toNat ≠ none)
    (taken : handle dispatcher history.loop (.remove fd channel) = .ok (code, after)) :
    Good ⟨after, Function.update history.registered fd.toNat none⟩ := by
  have same := good.same
  rcases EventLoop.handlePendingRemove_cases taken with ⟨rfl, beyond⟩ | removed
  · have inside := good.refines.inside fd.toNat registered
    have outside := beyond positive
    omega
  · obtain ⟨number, _, _, _, _, inside, _, _, _, rfl⟩ := removed
    refine ⟨good.grown.write _ _, ?_, ?_⟩
    · change (history.loop.channelMap.write fd.toNat none).lookup = _
      rw [ChannelMap.lookup_write (by omega), same]
    · intro other number found
      change Function.update history.registered fd.toNat none other = some number at found
      by_cases here : other = fd.toNat
      · subst here
        rw [Function.update_self] at found
        cases found
      · rw [Function.update_of_ne here] at found
        exact good.known other number found

theorem Good.step (good : history.Good) (permitted : history.Permitted call)
    (taken : step dispatcher history call = .ok next) : next.Good := by
  obtain ⟨⟨code, after⟩, handled, same⟩ := bind_eq_ok.mp taken
  cases same
  cases call with
  | add fd channel memory =>
    obtain ⟨positive, small, inside⟩ := permitted
    by_cases refused : Refused history.loop (.add fd channel memory)
    · cases (handle_refused good.grown positive small refused).symm.trans handled
      have kept : history.mapAfter (.add fd channel memory) = history.registered := if_pos refused
      rw [kept]
      exact good
    · have entered : history.mapAfter (.add fd channel memory) =
          addFirst history.registered fd.toNat channel := if_neg refused
      rw [entered]
      exact good.add positive small inside refused handled
  | remove fd channel =>
    have removed : history.mapAfter (.remove fd channel) =
        Function.update history.registered fd.toNat none := if_neg id
    rw [removed]
    exact good.remove permitted.1 permitted.2.1 handled

/-- A permitted call returns if the dispatcher does. -/
theorem Good.returns (good : history.Good) (permitted : history.Permitted call)
    (adds : ∀ data channel, ∃ answer, dispatcher.add data channel = .ok answer)
    (dels : ∀ data channel, ∃ answer, dispatcher.del data channel = .ok answer) :
    ∃ next, TableHistory.step dispatcher history call = .ok next := by
  have handled : ∃ answer, handle dispatcher history.loop call = .ok answer := by
    cases call with
    | add fd channel memory =>
      obtain ⟨positive, small, inside⟩ := permitted
      by_cases refused : Refused history.loop (.add fd channel memory)
      · exact ⟨_, handle_refused good.grown positive small refused⟩
      · cases found : history.loop.channelMap.lookup fd.toNat with
        | some number =>
          have registered : history.loop.channelMap.lookup fd.toNat ≠ none := by
            rw [found]
            exact Option.some_ne_none number
          exact ⟨_, EventLoop.handlePendingAdd_registered positive registered⟩
        | none =>
          obtain ⟨answer, made⟩ := adds history.loop.dispatcherData history.loop.channels[channel]
          obtain ⟨map, _, _, returns⟩ := EventLoop.handlePendingAdd_fresh good.grown positive small
            found (granted_room refused) (List.getElem?_eq_getElem inside) made
          exact ⟨_, returns⟩
    | remove fd channel =>
      obtain ⟨positive, registered, given, found, rfl⟩ := permitted
      obtain ⟨number, entry⟩ := Option.ne_none_iff_exists'.mp registered
      have inside := good.known _ number entry
      have object := List.getElem?_eq_getElem inside
      obtain ⟨answer, deleted⟩ := dels history.loop.dispatcherData history.loop.channels[number]
      rw [← good.same] at entry
      exact ⟨_, EventLoop.handlePendingRemove_registered found positive entry object deleted⟩
  obtain ⟨answer, handled⟩ := handled
  exact ⟨_, bind_eq_ok.mpr ⟨answer, handled, rfl⟩⟩

variable {dispatcherData : Data} {channels : List Channel} {calls : List TableCall}

/-- In every run of additions and removals the table is the finite map of what was registered,
every call keeps the entries of the others, and only the dispatcher can keep it from
returning. -/
theorem table_refines_map
    (permitted : Along (TableHistory.step dispatcher) Permitted (start dispatcherData channels)
      calls) :
    (∀ before final, before <+: calls →
      run (TableHistory.step dispatcher) (start dispatcherData channels) before = .ok final →
      final.Refines) ∧
    Along (TableHistory.step dispatcher) (CallKeeps dispatcher) (start dispatcherData channels)
      calls ∧
    ((∀ data channel, ∃ answer, dispatcher.add data channel = .ok answer) →
      (∀ data channel, ∃ answer, dispatcher.del data channel = .ok answer) →
      ∃ final, run (TableHistory.step dispatcher) (start dispatcherData channels) calls =
        .ok final) := by
  have begun := start_good dispatcherData channels
  have advance (history : TableHistory Data) (call : TableCall) (next : TableHistory Data)
      (good : history.Good) (met : history.Permitted call)
      (taken : TableHistory.step dispatcher history call = .ok next) : next.Good :=
    good.step met taken
  refine ⟨?_, ?_, ?_⟩
  · intro before final front success
    have good := run_invariant Good advance begun (permitted.of_prefix front) success
    exact good.refines
  · exact permitted.imp Good advance (fun history call good met => good.call_keeps met) begun
  · intro adds dels
    obtain ⟨final, success, _⟩ := run_succeeds Good (fun history call good met => by
      obtain ⟨next, taken⟩ := good.returns met adds dels
      exact ⟨next, taken, good.step met taken⟩) begun permitted
    exact ⟨final, success⟩

/-- A dispatcher that counts what it watches. -/
def counting : EventDispatcher Nat where
  add watched _ := .ok (0, watched + 1)
  del watched _ := .ok (0, watched - 1)
  update watched _ := .ok (0, watched)

theorem table_refines_map_sample :
    (∀ before final, before <+: [.add 5 0 true, .remove 5 0] →
      run (TableHistory.step counting) (start 0 [App.connectionChannel 0 5]) before = .ok final →
      final.Refines) ∧
    Along (TableHistory.step counting) (CallKeeps counting) (start 0 [App.connectionChannel 0 5])
      [.add 5 0 true, .remove 5 0] ∧
    ((∀ data channel, ∃ answer, counting.add data channel = .ok answer) →
      (∀ data channel, ∃ answer, counting.del data channel = .ok answer) →
      ∃ final, run (TableHistory.step counting) (start 0 [App.connectionChannel 0 5])
        [.add 5 0 true, .remove 5 0] = .ok final) := by
  apply table_refines_map
  refine ⟨⟨by decide, by decide, by decide⟩, ?_⟩
  intro next taken
  refine ⟨?_, fun _ _ => trivial⟩
  have registered : (TableHistory.step counting (start 0 [App.connectionChannel 0 5])
      (.add 5 0 true)).map (fun next => (next.registered 5, next.loop.channels)) =
        .ok (some 0, [App.connectionChannel 0 5]) := rfl
  rw [taken] at registered
  obtain ⟨entry, channels⟩ := Prod.mk.inj (Except.ok.inj registered)
  refine ⟨by decide, ?_, App.connectionChannel 0 5, ?_, rfl⟩
  · exact entry ▸ Option.some_ne_none 0
  · exact congrArg (·[0]?) channels

end TableHistory

end Yolanda.Lib
