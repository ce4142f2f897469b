import Yolanda.App.Consistency
import Yolanda.App.Server
import Yolanda.Foundation.Run

/-! What holds of the tables of a server and of what was done with each channel, and that the
operations of the pending list keep it. -/

namespace Yolanda.App

open Foundation

/-- What may be done with a channel after what was done before. -/
def Permitted (before : List Call) : Call → Prop
  | .accept => before = []
  | .arrive _ => True
  | .read | .write | .shutdown | .epollCtl | .close => .close ∉ before
  | .message _ | .handleWrite | .unwatched => .unwatched ∉ before
  | .connectionClosed => ∃ front, before = front ++ [.unwatched]

/-- The calls that do not end anything. -/
def Call.Mild (call : Call) : Prop :=
  call ≠ .close ∧ call ≠ .unwatched ∧ call ≠ .connectionClosed

/-- The bytes that have become ready on the socket. -/
def arrivedBytes (trace : List Call) : Bytes :=
  trace.flatMap fun
    | .arrive bytes => bytes
    | _ => []

/-- The bytes that were passed to `messageCallBack`. -/
def messageBytes (trace : List Call) : Bytes :=
  trace.flatMap fun
    | .message bytes => bytes
    | _ => []

@[simp] theorem arrivedBytes_append (trace calls : List Call) :
    arrivedBytes (trace ++ calls) = arrivedBytes trace ++ arrivedBytes calls :=
  List.flatMap_append

@[simp] theorem messageBytes_append (trace calls : List Call) :
    messageBytes (trace ++ calls) = messageBytes trace ++ messageBytes calls :=
  List.flatMap_append

/-- `connectionClosedCallBack` is called behind the end of the watch only. -/
theorem unwatched_of_closed {trace : List Call} (orderly : Orderly Permitted trace)
    (closed : .connectionClosed ∈ trace) : .unwatched ∈ trace := by
  obtain ⟨before, after, shape⟩ := List.append_of_mem closed
  obtain ⟨front, ends⟩ := orderly.allowed_of shape
  rw [shape, ends]
  simp

namespace Server

/-- The map names channels of their descriptors, and what is watched is in the map and owned by
the channel that is there. -/
structure Tables (server : Server) : Prop where
  watched : ∀ fd, server.registry.kernel.registered fd ≠ none →
    ∃ number, server.registry.channelMap fd = some number ∧ server.owned fd = some number
  mapped : ∀ fd number, server.registry.channelMap fd = some number →
    0 ≤ fd ∧ server.registry.fdOf number = some fd
  owned : ∀ fd number, server.owned fd = some number →
    server.registry.fdOf number = some fd ∧ server.registry.kernel.opened fd = true

/-- What was done with each channel fits together, and fits the tables. -/
structure Traces (server : Server) : Prop where
  usable : ∀ fd number, server.owned fd = some number → .close ∉ server.trace number
  lost : ∀ fd number, server.registry.fdOf number = some fd → 0 ≤ fd →
    server.owned fd ≠ some number → .close ∈ server.trace number
  attended : ∀ fd number, server.registry.kernel.registered fd ≠ none →
    server.registry.channelMap fd = some number → .unwatched ∉ server.trace number
  fresh : ∀ number, server.registry.channels.length ≤ number → server.trace number = []
  orderly : ∀ number, Orderly Permitted (server.trace number)
  roles : ∀ (number : Nat) channel, server.registry.channels[number]? = some channel →
    (.accept ∈ server.trace number ↔
      channel.eventReadCallback = some .handleRead ∧ 0 ≤ channel.fd)
  conserved : ∀ number,
    arrivedBytes (server.trace number) = messageBytes (server.trace number) ++ server.ready number

/-- The state between two operations of the thread of the loop. -/
structure Sane (server : Server) : Prop extends Tables server, Traces server

/-- An operation, not a removal, for which the tables are ready. -/
structure Suited (server : Server) (element : ChannelElement Nat) : Prop where
  kind : element.type ≠ 2
  known : server.registry.fdOf element.channel ≠ none
  usable : .close ∉ server.trace element.channel
  added : element.type = 1 → .unwatched ∉ server.trace element.channel ∧
    ∀ fd, server.registry.fdOf element.channel = some fd → 0 ≤ fd →
      server.owned fd = some element.channel

/-- Calls that can be recorded for a channel, with the bytes that are ready behind them. -/
structure Recordable (server : Server) (number : Nat) (calls : List Call) (ready : Bytes) :
    Prop where
  known : server.registry.fdOf number ≠ none
  orderly : Orderly Permitted (server.trace number ++ calls)
  unaccepted : .accept ∉ calls
  conserved : server.ready number ++ arrivedBytes calls = messageBytes calls ++ ready

/-- Nothing has ended on the way from one state to another. -/
structure Stays (server next : Server) : Prop where
  names : ∀ number fd, server.registry.fdOf number = some fd →
    next.registry.fdOf number = some fd
  owned : ∀ fd number, server.owned fd = some number → next.owned fd = some number
  registered : ∀ fd, server.registry.kernel.registered fd ≠ none →
    next.registry.kernel.registered fd ≠ none
  fits : ∀ fd, (server.registry.channelMap fd ≠ none →
      server.registry.kernel.registered fd ≠ none) →
    next.registry.channelMap fd ≠ none → next.registry.kernel.registered fd ≠ none
  reported : next.reported = server.reported
  trace : ∀ number, ∃ calls, next.trace number = server.trace number ++ calls ∧
    ∀ call ∈ calls, call.Mild

variable {server next : Server} {element : ChannelElement Nat} {number : Nat} {fd : Int}

/-- Nothing is done with the channel. -/
theorem trace_kept (same : next.trace number = server.trace number) :
    ∃ calls, next.trace number = server.trace number ++ calls ∧ ∀ call ∈ calls, call.Mild := by
  refine ⟨[], ?_, nofun⟩
  rw [same, List.append_nil]

namespace Stays

/-- What neither the descriptors nor the map nor the reports tell apart. -/
theorem of_eq (names : next.registry.fdOf = server.registry.fdOf)
    (owned : next.owned = server.owned)
    (registered : next.registry.kernel.registered = server.registry.kernel.registered)
    (mapped : next.registry.channelMap = server.registry.channelMap)
    (reported : next.reported = server.reported)
    (trace : ∀ number, ∃ calls, next.trace number = server.trace number ++ calls ∧
      ∀ call ∈ calls, call.Mild) : Stays server next := by
  refine ⟨?_, ?_, ?_, ?_, reported, trace⟩
  · intro number fd named
    rw [names]
    exact named
  · intro fd number held
    rw [owned]
    exact held
  · intro fd present
    rw [registered]
    exact present
  · intro fd fit
    rw [mapped, registered]
    exact fit

theorem refl (server : Server) : Stays server server :=
  of_eq rfl rfl rfl rfl rfl fun _ => trace_kept rfl

theorem trans {middle : Server} (first : Stays server middle) (second : Stays middle next) :
    Stays server next := by
  refine ⟨fun number fd named => second.names number fd (first.names number fd named),
    fun fd number held => second.owned fd number (first.owned fd number held),
    fun fd present => second.registered fd (first.registered fd present),
    fun fd fit => second.fits fd (first.fits fd fit),
    second.reported.trans first.reported, ?_⟩
  intro number
  obtain ⟨calls, early, mild⟩ := first.trace number
  obtain ⟨more, late, mild'⟩ := second.trace number
  refine ⟨calls ++ more, by rw [late, early, List.append_assoc], ?_⟩
  intro call member
  rcases List.mem_append.mp member with before | after
  · exact mild call before
  · exact mild' call after

theorem mem_trace (stays : Stays server next) {call : Call} (stern : ¬ call.Mild) :
    call ∈ next.trace number ↔ call ∈ server.trace number := by
  obtain ⟨calls, later, mild⟩ := stays.trace number
  rw [later, List.mem_append]
  exact ⟨fun member => member.resolve_right fun inside => stern (mild call inside), .inl⟩

theorem close (stays : Stays server next) :
    .close ∈ next.trace number ↔ .close ∈ server.trace number :=
  stays.mem_trace fun mild => mild.1 rfl

theorem unwatched (stays : Stays server next) :
    .unwatched ∈ next.trace number ↔ .unwatched ∈ server.trace number :=
  stays.mem_trace fun mild => mild.2.1 rfl

theorem connectionClosed (stays : Stays server next) :
    .connectionClosed ∈ next.trace number ↔ .connectionClosed ∈ server.trace number :=
  stays.mem_trace fun mild => mild.2.2 rfl

end Stays

theorem Suited.stays (suited : Suited server element) (stays : Stays server next) :
    Suited next element := by
  obtain ⟨fd, named⟩ := Option.ne_none_iff_exists'.mp suited.known
  have later := stays.names _ _ named
  refine ⟨suited.kind, by rw [later]; exact nofun, fun member => suited.usable (stays.close.mp member),
    ?_⟩
  intro add
  obtain ⟨unseen, held⟩ := suited.added add
  refine ⟨fun member => unseen (stays.unwatched.mp member), ?_⟩
  intro other same usable
  cases later.symm.trans same
  exact stays.owned _ _ (held fd named usable)

@[simp] theorem trace_record (server : Server) (number : Nat) (calls : List Call) :
    (server.record number calls).trace number = server.trace number ++ calls :=
  Function.update_self ..

theorem trace_record_of_ne (server : Server) {other : Nat} (calls : List Call)
    (differs : other ≠ number) : (server.record number calls).trace other = server.trace other :=
  Function.update_of_ne differs ..

theorem mem_trace_record {calls : List Call} {call : Call} (differs : call ∉ calls) (other : Nat) :
    call ∈ (server.record number calls).trace other ↔ call ∈ server.trace other := by
  by_cases same : other = number
  · subst same
    rw [trace_record, List.mem_append]
    exact or_iff_left differs
  · rw [trace_record_of_ne _ _ same]

namespace Recordable

variable {calls : List Call} {ready : Bytes}

theorem fresh (recordable : Recordable server number calls ready) (sane : Sane server) (other : Nat)
    (beyond : server.registry.channels.length ≤ other) :
    (server.record number calls).trace other = [] := by
  have differs : other ≠ number := by
    rintro rfl
    obtain ⟨channel, place⟩ := Registry.fdOf_ne_none.mp recordable.known
    exact Nat.not_lt.mpr beyond (List.getElem?_eq_some_iff.mp place).1
  rw [trace_record_of_ne _ _ differs]
  exact sane.fresh other beyond

theorem orderlyTrace (recordable : Recordable server number calls ready) (sane : Sane server)
    (other : Nat) : Orderly Permitted ((server.record number calls).trace other) := by
  by_cases same : other = number
  · subst same
    rw [trace_record]
    exact recordable.orderly
  · rw [trace_record_of_ne _ _ same]
    exact sane.orderly other

theorem roles (recordable : Recordable server number calls ready) (sane : Sane server) (other : Nat)
    (channel : Channel) (place : server.registry.channels[other]? = some channel) :
    .accept ∈ (server.record number calls).trace other ↔
      channel.eventReadCallback = some .handleRead ∧ 0 ≤ channel.fd :=
  (mem_trace_record recordable.unaccepted other).trans (sane.roles other channel place)

theorem conservedTrace (recordable : Recordable server number calls ready) (sane : Sane server)
    (other : Nat) : arrivedBytes ((server.record number calls).trace other) =
      messageBytes ((server.record number calls).trace other) ++
        Function.update server.ready number ready other := by
  have before := sane.conserved other
  by_cases same : other = number
  · subst same
    rw [trace_record, arrivedBytes_append, messageBytes_append, before, Function.update_self,
      List.append_assoc, List.append_assoc, recordable.conserved]
  · rw [trace_record_of_ne _ _ same, Function.update_of_ne same]
    exact before

/-- Calls that end nothing leave the tables fitting. -/
theorem sane (recordable : Recordable server number calls ready) (sane : Sane server)
    (unclosed : .close ∉ calls) (unended : .unwatched ∉ calls) :
    Sane ({ server with ready := Function.update server.ready number ready }.record number
      calls) := by
  refine ⟨⟨sane.watched, sane.mapped, sane.owned⟩, ⟨?_, ?_, ?_, recordable.fresh sane,
    recordable.orderlyTrace sane, recordable.roles sane, recordable.conservedTrace sane⟩⟩
  · intro fd other held member
    exact sane.usable fd other held ((mem_trace_record unclosed other).mp member)
  · intro fd other named usable unheld
    exact (mem_trace_record unclosed other).mpr (sane.lost fd other named usable unheld)
  · intro fd other registered mapped member
    exact sane.attended fd other registered mapped ((mem_trace_record unended other).mp member)

end Recordable

/-- A call that ends nothing may be recorded where it is permitted. -/
theorem Sane.record (sane : Sane server) {call : Call}
    (known : server.registry.fdOf number ≠ none) (permitted : Permitted (server.trace number) call)
    (inside : call ≠ .close ∧ call ≠ .unwatched ∧ call ≠ .accept)
    (silent : arrivedBytes [call] = [] ∧ messageBytes [call] = []) :
    Sane (server.record number [call]) := by
  have recordable : Recordable server number [call] (server.ready number) := by
    refine ⟨known, (sane.orderly number).concat permitted, ?_, ?_⟩
    · simpa using inside.2.2.symm
    · rw [silent.1, silent.2, List.append_nil, List.nil_append]
  have recorded := recordable.sane sane (by simpa using inside.1.symm)
    (by simpa using inside.2.1.symm)
  rwa [Function.update_eq_self] at recorded

theorem stays_record (server : Server) (number : Nat) {calls : List Call} {ready : Nat → Bytes}
    (mild : ∀ call ∈ calls, call.Mild) :
    Stays server ({ server with ready }.record number calls) := by
  refine .of_eq rfl rfl rfl rfl rfl ?_
  intro other
  by_cases same : other = number
  · subst same
    exact ⟨calls, trace_record .., mild⟩
  · exact trace_kept (trace_record_of_ne _ _ same)

/-- A use of an open descriptor. -/
theorem Sane.recordUse (sane : Sane server) {call : Call}
    (known : server.registry.fdOf number ≠ none) (usable : .close ∉ server.trace number)
    (use : call = .read ∨ call = .write ∨ call = .shutdown ∨ call = .epollCtl) :
    Sane (server.record number [call]) := by
  rcases use with rfl | rfl | rfl | rfl <;>
  exact sane.record known usable (by simp) ⟨rfl, rfl⟩

end Server

namespace Registry

variable {registry next : Registry} {element : ChannelElement Nat} {number : Nat}
variable {channel : Channel}

theorem controlled_eq (kind : element.type ≠ 2) (passed : registry.controlled element = some number) :
    number = element.channel := by
  obtain ⟨channel, _, rest⟩ := Option.bind_eq_some_iff.mp passed
  split at rest
  · cases rest
  · split at rest
    · cases rest
      rfl
    · exact absurd ‹_› kind
    · cases rest
      rfl
    · cases rest

theorem controlled_remove (place : registry.channels[number]? = some channel)
    (usable : 0 ≤ channel.fd) (mapped : registry.channelMap channel.fd = some number) :
    registry.controlled ⟨2, number⟩ = some number := by
  simp only [controlled, place, Option.bind_eq_bind, Option.bind_some]
  rw [if_neg (Int.not_lt.mpr usable), mapped]
  rfl

end Registry

namespace Server

variable {server next : Server} {element : ChannelElement Nat}

/-- An operation that is no removal changes only what is asked of its own descriptor. -/
private theorem applied_sane (sane : Sane server) (suited : Suited server element)
    {registry : Registry} {channel : Channel}
    (place : server.registry.channels[element.channel]? = some channel)
    (applied : Registry.Applied server.registry element channel registry) :
    Sane { server with registry } ∧ Stays server { server with registry } := by
  have named := Registry.fdOf_eq place
  have still (number : Nat) : ∃ calls, server.trace number = server.trace number ++ calls ∧
      ∀ call ∈ calls, call.Mild := @trace_kept server server number rfl
  cases applied with
  | ignored other => exact ⟨sane, .refl server⟩
  | skipped result refused =>
    exact ⟨⟨⟨sane.watched, sane.mapped, sane.owned⟩, ⟨sane.usable, sane.lost, sane.attended,
      sane.fresh, sane.orderly, sane.roles, sane.conserved⟩⟩,
      .of_eq rfl rfl rfl rfl rfl still⟩
  | added type usable free opened missing =>
    obtain ⟨unseen, held⟩ := suited.added type
    refine ⟨⟨⟨?_, ?_, sane.owned⟩, ⟨sane.usable, sane.lost, ?_, sane.fresh, sane.orderly,
      sane.roles, sane.conserved⟩⟩, ⟨fun _ _ => id, fun _ _ => id, ?_, ?_, rfl, still⟩⟩
    · intro fd registered
      by_cases same : fd = channel.fd
      · subst same
        exact ⟨element.channel, Function.update_self .., held channel.fd named usable⟩
      · obtain ⟨number, found, own⟩ := sane.watched fd
          (by simpa [Registry.log, Registry.enter, same] using registered)
        exact ⟨number, by simpa [Registry.log, Registry.enter, same] using found, own⟩
    · intro fd number found
      by_cases same : fd = channel.fd
      · subst same
        have here : element.channel = number := by
          simpa [Registry.log, Registry.enter] using found
        exact ⟨usable, here ▸ named⟩
      · exact sane.mapped fd number (by simpa [Registry.log, Registry.enter, same] using found)
    · intro fd number registered found
      by_cases same : fd = channel.fd
      · have here : element.channel = number := by
          simpa [Registry.log, Registry.enter, same] using found
        exact here ▸ unseen
      · exact sane.attended fd number
          (by simpa [Registry.log, Registry.enter, same] using registered)
          (by simpa [Registry.log, Registry.enter, same] using found)
    · intro fd registered
      by_cases same : fd = channel.fd
      · simp [Registry.log, Registry.enter, same]
      · simpa [Registry.log, Registry.enter, same] using registered
    · intro fd fit mapped
      by_cases same : fd = channel.fd
      · simp [Registry.log, Registry.enter, same]
      · have before := fit (by simpa [Registry.log, Registry.enter, same] using mapped)
        simpa [Registry.log, Registry.enter, same] using before
  | removed type number mapped found mappedPlace watched => exact absurd type suited.kind
  | updated type found watched =>
    have same (fd : Int) : (server.registry.retune channel.fd channel.epollEvents).kernel.registered
        fd ≠ none ↔ server.registry.kernel.registered fd ≠ none := by
      by_cases same : fd = channel.fd
      · subst same
        simp [Registry.retune, watched]
      · simp [Registry.retune, same]
    refine ⟨⟨⟨?_, sane.mapped, sane.owned⟩, ⟨sane.usable, sane.lost, ?_, sane.fresh, sane.orderly,
      sane.roles, sane.conserved⟩⟩, ⟨fun _ _ => id, fun _ _ => id, ?_, ?_, rfl, still⟩⟩
    · exact fun fd registered => sane.watched fd ((same fd).mp registered)
    · exact fun fd number registered => sane.attended fd number ((same fd).mp registered)
    · exact fun fd => (same fd).mpr
    · exact fun fd fit mapped => (same fd).mpr (fit mapped)

theorem handlePending_sane (sane : Sane server) (suited : Suited server element)
    (success : server.handlePending element = .ok next) :
    Sane next ∧ Stays server next ∧ next.pending = server.pending ∧ next.ready = server.ready := by
  obtain ⟨registry, handled, rest⟩ := bind_eq_ok.mp success
  obtain ⟨channel, place, applied⟩ := Registry.handlePending_applied handled
  obtain ⟨kept, stays⟩ := applied_sane sane suited place applied
  cases passed : server.registry.controlled element with
  | none =>
    rw [passed] at rest
    cases rest
    exact ⟨kept, stays, rfl, rfl⟩
  | some number =>
    rw [passed] at rest
    simp only [if_neg suited.kind] at rest
    cases rest
    cases Registry.controlled_eq suited.kind passed
    have known : registry.fdOf element.channel ≠ none :=
      (suited.stays stays).known
    refine ⟨kept.recordUse known suited.usable (.inr (.inr (.inr rfl))), ?_, rfl, rfl⟩
    apply stays.trans
    apply stays_record
    simp [Call.Mild]

theorem handleAll_sane {elements : List (ChannelElement Nat)} (sane : Sane server)
    (suited : ∀ element ∈ elements, Suited server element)
    (success : server.handleAll elements = .ok next) :
    Sane next ∧ Stays server next ∧ next.pending = server.pending ∧ next.ready = server.ready := by
  induction elements generalizing server with
  | nil =>
    cases success
    exact ⟨sane, .refl _, rfl, rfl⟩
  | cons element elements ih =>
    obtain ⟨middle, first, rest⟩ := bind_eq_ok.mp success
    obtain ⟨kept, stays, pending, ready⟩ :=
      handlePending_sane sane (suited element (List.mem_cons_self ..)) first
    have later (other) (member : other ∈ elements) : Suited middle other :=
      (suited other (List.mem_cons_of_mem _ member)).stays stays
    obtain ⟨last, stays', pending', ready'⟩ := ih kept later rest
    exact ⟨last, stays.trans stays', pending'.trans pending, ready'.trans ready⟩

theorem handleAll_append (server : Server) (elements more : List (ChannelElement Nat)) :
    server.handleAll (elements ++ more) =
      (server.handleAll elements >>= fun middle => middle.handleAll more) := by
  induction elements generalizing server with
  | nil => rfl
  | cons element elements ih =>
    rw [List.cons_append]
    simp only [handleAll]
    cases server.handlePending element with
    | error fault => rfl
    | ok middle => exact ih middle

end Server

end Yolanda.App
