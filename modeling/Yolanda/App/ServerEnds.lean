import Yolanda.App.ServerStep

/-! The ends of a connection: `handle_connection_closed` behind a read, and the `close` of
`dispatch`. -/

namespace Yolanda.App

open Foundation

namespace Server

variable {server next : Server} {own : Bool} {number : Nat} {fd : Int}

/-- The end of the watch of an open descriptor can be recorded. -/
private theorem ends_recordable (sane : Sane server) (known : server.registry.fdOf number ≠ none)
    (usable : .close ∉ server.trace number) (unseen : .unwatched ∉ server.trace number) {call : Call}
    (last : call = .epollCtl ∨ call = .close) :
    Recordable server number [call, .unwatched] (server.ready number) := by
  rcases last with rfl | rfl <;>
  refine ⟨known, (sane.orderly number).pair usable ?_, by simp, List.append_nil _⟩ <;>
  simp [Permitted, unseen]

/-- A channel that is watched leaves the tables. -/
private theorem drop_sane (sane : Sane server) {channel : Channel} {element : ChannelElement Nat}
    (place : server.registry.channels[number]? = some channel)
    (held : server.owned channel.fd = some number)
    (unseen : .unwatched ∉ server.trace number) :
    Sane ({ server with
      registry := (server.registry.drop channel.fd channel.fd).log element 1 }.record number
        [.epollCtl, .unwatched]) := by
  have named := Registry.fdOf_eq place
  have known : server.registry.fdOf number ≠ none := by
    rw [named]
    exact Option.some_ne_none _
  have recordable :=
    ends_recordable sane known (sane.usable _ _ held) unseen (.inl (@rfl _ Call.epollCtl))
  have conserved := recordable.conservedTrace sane
  rw [Function.update_eq_self] at conserved
  have unclosed : .close ∉ [Call.epollCtl, .unwatched] := by simp
  generalize dropped : (server.registry.drop channel.fd channel.fd).log element 1 = registry
  have registered (fd : Int) (present : registry.kernel.registered fd ≠ none) :
      fd ≠ channel.fd ∧ server.registry.kernel.registered fd ≠ none := by
    by_cases same : fd = channel.fd
    · simp [← dropped, Registry.log, Registry.drop, same] at present
    · exact ⟨same, by simpa [← dropped, Registry.log, Registry.drop, same] using present⟩
  have mapped (fd : Int) (owner : Nat) (found : registry.channelMap fd = some owner) :
      fd ≠ channel.fd ∧ server.registry.channelMap fd = some owner := by
    by_cases same : fd = channel.fd
    · simp [← dropped, Registry.log, Registry.drop, same] at found
    · exact ⟨same, by simpa [← dropped, Registry.log, Registry.drop, same] using found⟩
  have unmoved (fd : Int) (differs : fd ≠ channel.fd) :
      registry.channelMap fd = server.registry.channelMap fd := by
    simp [← dropped, Registry.log, Registry.drop, differs]
  subst dropped
  refine ⟨⟨?_, ?_, sane.owned⟩, ⟨?_, ?_, ?_, recordable.fresh sane, recordable.orderlyTrace sane,
    recordable.roles sane, conserved⟩⟩
  · intro fd present
    obtain ⟨differs, before⟩ := registered fd present
    obtain ⟨other, found, belongs⟩ := sane.watched fd before
    exact ⟨other, (unmoved fd differs).trans found, belongs⟩
  · intro fd other found
    exact sane.mapped fd other (mapped fd other found).2
  · intro fd other belongs closed
    exact sane.usable fd other belongs ((mem_trace_record unclosed other).mp closed)
  · intro fd other there positive unheld
    exact (mem_trace_record unclosed other).mpr (sane.lost fd other there positive unheld)
  · intro fd other present found
    obtain ⟨differs, before⟩ := registered fd present
    have found' := (mapped fd other found).2
    have apart : other ≠ number := by
      rintro rfl
      exact differs (Option.some.inj ((sane.mapped fd other found').2.symm.trans named))
    rw [trace_record_of_ne _ _ apart]
    exact sane.attended fd other before found'

/-- The removal of a channel that is watched. -/
private theorem remove_sane (sane : Sane server) {channel : Channel}
    (place : server.registry.channels[number]? = some channel)
    (watched : server.registry.kernel.registered channel.fd ≠ none)
    (held : server.owned channel.fd = some number)
    (success : server.handlePending ⟨2, number⟩ = .ok next) :
    Sane next ∧ next = { server with
      registry := (server.registry.drop channel.fd channel.fd).log ⟨2, number⟩ 1 }.record number
        [.epollCtl, .unwatched] := by
  obtain ⟨other, mapped, own⟩ := sane.watched _ watched
  cases held.symm.trans own
  obtain ⟨usable, named⟩ := sane.mapped _ _ mapped
  obtain ⟨_, opened⟩ := sane.owned _ _ held
  have deleted := EventDispatcher.del_ok.mpr ⟨opened, watched, rfl⟩
  have removed : server.registry.handlePending ⟨2, number⟩ =
      .ok ((server.registry.drop channel.fd channel.fd).log ⟨2, number⟩ 1) := by
    simp [Registry.handlePending, Registry.handlePendingRemove, Registry.channelAt_ok.mpr place,
      ok_bind, Int.not_lt.mpr usable, mapped, deleted, pure, Except.pure, Registry.drop]
  obtain ⟨registry, handled, rest⟩ := bind_eq_ok.mp success
  cases removed.symm.trans handled
  rw [Registry.controlled_remove place usable mapped] at rest
  cases rest
  exact ⟨drop_sane sane place held (sane.attended _ _ watched mapped), rfl⟩

/-- How a connection has been closed by its read callback. -/
structure Closed (server next : Server) (number : Nat) (fd : Int) : Prop where
  sound : Sound next
  owned : ∀ fd number, server.owned fd = some number → next.owned fd = some number
  fits : next.registry.channelMap fd ≠ none → next.registry.kernel.registered fd ≠ none
  own : ∃ before after, next.trace number = before ++ .unwatched :: .connectionClosed :: after ∧
    server.trace number <+: before ∧
    (messageBytes before = arrivedBytes before ↔ server.ready number = []) ∧
    ∀ call ∈ after, call.Mild
  others : ∀ other, other ≠ number → ∃ calls, next.trace other = server.trace other ++ calls ∧
    ∀ call ∈ calls, call.Mild

/-- The channel has been removed by the last operation of the pending list, behind those that
came before. -/
private structure Removed (server middle next : Server) (number : Nat) (fd : Int) : Prop where
  earlier : Sane middle
  stays : Stays server middle
  ready : middle.ready = server.ready
  sane : Sane next
  pending : next.pending = []
  reported : next.reported = server.reported
  owned : next.owned = middle.owned
  names : next.registry.fdOf = middle.registry.fdOf
  absent : next.registry.channelMap fd = none
  registered : ∀ other, other ≠ fd →
    next.registry.kernel.registered other = middle.registry.kernel.registered other
  own : next.trace number = middle.trace number ++ [.epollCtl, .unwatched]
  others : ∀ other, other ≠ number → next.trace other = middle.trace other

private theorem doChannelEvent_removed (sound : Sound server) {channel : Channel}
    (place : server.registry.channels[number]? = some channel)
    (watched : server.registry.kernel.registered channel.fd ≠ none)
    (held : server.owned channel.fd = some number)
    (success : server.doChannelEvent true number 2 = .ok next) :
    ∃ middle, Removed server middle next number channel.fd := by
  obtain ⟨final, all, rest⟩ := bind_eq_ok.mp success
  -- the removal is the last operation of the list
  have queued : ({ server with toEventLoop := server.channelBufferNolock number 2 } : Server).handleAll
      (server.pending ++ [⟨2, number⟩]) = .ok final := all
  rw [handleAll_append] at queued
  obtain ⟨middle, early, late⟩ := bind_eq_ok.mp queued
  obtain ⟨handled, one, done⟩ := bind_eq_ok.mp late
  cases done
  cases rest
  have suited (element) (member : element ∈ server.pending) :
      Suited { server with toEventLoop := server.channelBufferNolock number 2 } element := by
    have before := sound.suited element member
    exact ⟨before.kind, before.known, before.usable, before.added⟩
  obtain ⟨sane, stays, _, ready⟩ :=
    handleAll_sane (sound.withLists _ server.reported) suited early
  obtain ⟨channel', place', same⟩ :=
    Registry.fdOf_eq_some.mp (stays.names number _ (Registry.fdOf_eq place))
  have watched' := stays.registered _ watched
  have held' := stays.owned _ _ held
  rw [← same] at watched' held' ⊢
  obtain ⟨dropped, shape⟩ := remove_sane sane place' watched' held' one
  have stays' : Stays server middle :=
    ⟨stays.names, stays.owned, stays.registered, stays.fits, stays.reported, stays.trace⟩
  refine ⟨middle, sane, stays', ready, dropped.withLists [] final.reported, rfl, ?_, ?_, ?_, ?_, ?_,
    ?_, ?_⟩
  all_goals subst shape
  · exact stays.reported
  · rfl
  · rfl
  · exact Function.update_self ..
  · exact fun other differs => Function.update_of_ne differs ..
  · exact trace_record ..
  · exact fun other differs => trace_record_of_ne _ _ differs

/-- `connectionClosedCallBack` may be called when the channel has been removed. -/
private theorem Removed.sound {middle : Server} (removed : Removed server middle next number fd)
    (sound : Sound server) (held : server.owned fd = some number)
    (apart : ∀ event ∈ server.reported, event.fd ≠ fd) :
    Sound (next.record number [.connectionClosed]) ∧
      Callable (next.record number [.connectionClosed]) true number := by
  obtain ⟨named, _⟩ := removed.earlier.owned fd number (removed.stays.owned fd number held)
  have known : next.registry.fdOf number ≠ none := by
    rw [removed.names, named]
    exact nofun
  have usable : .close ∉ next.trace number := by
    apply removed.sane.usable fd number
    rw [removed.owned]
    exact removed.stays.owned fd number held
  have ended : ∃ front, next.trace number = front ++ [.unwatched] :=
    ⟨middle.trace number ++ [.epollCtl], by rw [removed.own, List.append_cons]⟩
  have recorded : Sane (next.record number [.connectionClosed]) :=
    removed.sane.record known ended (by simp) ⟨rfl, rfl⟩
  have empty : (next.record number [.connectionClosed]).pending = [] := removed.pending
  have same : (next.record number [.connectionClosed]).reported = server.reported :=
    removed.reported
  refine ⟨⟨⟨recorded, ?_, ?_, ?_⟩, ?_⟩, ⟨known, ?_, nofun⟩⟩
  · rw [empty]
    exact nofun
  · intro event member
    have before : event ∈ server.reported := same ▸ member
    change next.registry.kernel.registered event.fd ≠ none
    rw [removed.registered _ (apart event before)]
    exact removed.stays.registered _ (sound.reports event before)
  · rw [same]
    exact sound.once
  · rw [empty]
    exact nofun
  · rw [trace_record, List.mem_append]
    exact fun closed => closed.elim usable (by simp)

theorem closeConnection_closed (sound : Sound server) {actions : List OwnAction} {channel : Channel}
    (place : server.registry.channels[number]? = some channel)
    (watched : server.registry.kernel.registered channel.fd ≠ none)
    (mapped : server.registry.channelMap channel.fd = some number)
    (apart : ∀ event ∈ server.reported, event.fd ≠ channel.fd)
    (success : server.closeConnection number actions = .ok next) :
    Closed server next number channel.fd := by
  obtain ⟨final, first, called⟩ := bind_eq_ok.mp success
  obtain ⟨owner, found, held⟩ := sound.watched _ watched
  cases mapped.symm.trans found
  obtain ⟨middle, removed⟩ := doChannelEvent_removed sound place watched held first
  obtain ⟨kept, callable⟩ := removed.sound sound held apart
  obtain ⟨last, stays, _⟩ := actAll_sound kept callable called
  refine ⟨last, ?_, ?_, ?_, ?_⟩
  · intro fd other belongs
    apply stays.owned
    change final.owned fd = some other
    rw [removed.owned]
    exact removed.stays.owned fd other belongs
  · exact stays.fits channel.fd fun present => absurd removed.absent present
  · obtain ⟨calls, more, _⟩ := removed.stays.trace number
    obtain ⟨after, rest, mild⟩ := stays.trace number
    refine ⟨middle.trace number ++ [.epollCtl], after, ?_, ?_, ?_, mild⟩
    · rw [rest, trace_record, removed.own]
      simp
    · rw [more, List.append_assoc]
      exact List.prefix_append ..
    · have conserved := removed.earlier.conserved number
      rw [removed.ready] at conserved
      have silent : arrivedBytes [.epollCtl] = [] ∧ messageBytes [.epollCtl] = [] := ⟨rfl, rfl⟩
      rw [arrivedBytes_append, messageBytes_append, silent.1, silent.2, List.append_nil,
        List.append_nil, conserved]
      exact List.self_eq_append_right
  · intro other differs
    obtain ⟨calls, more, mild⟩ := removed.stays.trace other
    obtain ⟨after, rest, mild'⟩ := stays.trace other
    refine ⟨calls ++ after, ?_, ?_⟩
    · rw [rest, trace_record_of_ne _ _ differs, removed.others other differs, more,
        List.append_assoc]
    · intro call member
      exact (List.mem_append.mp member).elim (mild call) (mild' call)

/-- `close` for a descriptor that is watched. -/
private theorem close_sane (sane : Sane server)
    (watched : server.registry.kernel.registered fd ≠ none)
    (held : server.owned fd = some number) (unseen : .unwatched ∉ server.trace number) :
    Sane ({ server with
      registry := { server.registry with kernel := server.registry.kernel.close fd }
      owned := Function.update server.owned fd none }.record number [.close, .unwatched]) := by
  obtain ⟨named, _⟩ := sane.owned _ _ held
  have known : server.registry.fdOf number ≠ none := by
    rw [named]
    exact Option.some_ne_none _
  have recordable :=
    ends_recordable sane known (sane.usable _ _ held) unseen (.inr (@rfl _ Call.close))
  have conserved := recordable.conservedTrace sane
  rw [Function.update_eq_self] at conserved
  have registered (other : Int)
      (present : (server.registry.kernel.close fd).registered other ≠ none) :
      other ≠ fd ∧ server.registry.kernel.registered other ≠ none := by
    by_cases same : other = fd
    · simp [Kernel.close, same] at present
    · exact ⟨same, by simpa [Kernel.close, same] using present⟩
  have owned (other : Int) (owner : Nat)
      (belongs : Function.update server.owned fd none other = some owner) :
      other ≠ fd ∧ owner ≠ number ∧ server.owned other = some owner := by
    by_cases same : other = fd
    · rw [same, Function.update_self] at belongs
      cases belongs
    · rw [Function.update_of_ne same] at belongs
      refine ⟨same, ?_, belongs⟩
      rintro rfl
      exact same (Option.some.inj ((sane.owned other owner belongs).1.symm.trans named))
  refine ⟨⟨?_, sane.mapped, ?_⟩, ⟨?_, ?_, ?_, recordable.fresh sane, recordable.orderlyTrace sane,
    recordable.roles sane, conserved⟩⟩
  · intro other present
    obtain ⟨differs, before⟩ := registered other present
    obtain ⟨owner, found, belongs⟩ := sane.watched other before
    exact ⟨owner, found, (Function.update_of_ne differs ..).trans belongs⟩
  · intro other owner belongs
    obtain ⟨differs, _, before⟩ := owned other owner belongs
    obtain ⟨there, opened⟩ := sane.owned other owner before
    exact ⟨there, (Function.update_of_ne differs ..).trans opened⟩
  · intro other owner belongs
    obtain ⟨_, differs, before⟩ := owned other owner belongs
    rw [trace_record_of_ne _ _ differs]
    exact sane.usable other owner before
  · intro other owner there positive unheld
    by_cases here : owner = number
    · subst here
      simp
    · rw [trace_record_of_ne _ _ here]
      apply sane.lost other owner there positive
      intro belongs
      have differs : other ≠ fd := by
        rintro rfl
        exact here (Option.some.inj (belongs.symm.trans held))
      exact unheld ((Function.update_of_ne differs ..).trans belongs)
  · intro other owner present found
    obtain ⟨differs, before⟩ := registered other present
    have apart : owner ≠ number := by
      rintro rfl
      exact differs (Option.some.inj ((sane.mapped other owner found).2.symm.trans named))
    rw [trace_record_of_ne _ _ apart]
    exact sane.attended other owner before found

theorem closeFailed_sound (sound : Sound server)
    (watched : server.registry.kernel.registered fd ≠ none)
    (mapped : server.registry.channelMap fd = some number)
    (apart : ∀ event ∈ server.reported, event.fd ≠ fd) :
    Sound (server.closeFailed fd) ∧
      (server.closeFailed fd).trace number = server.trace number ++ [.close, .unwatched] ∧
      ∀ other, other ≠ number → (server.closeFailed fd).trace other = server.trace other := by
  obtain ⟨owner, found, held⟩ := sound.watched fd watched
  cases mapped.symm.trans found
  have closed : server.closeFailed fd = { server with
      registry := { server.registry with kernel := server.registry.kernel.close fd }
      owned := Function.update server.owned fd none }.record number [.close, .unwatched] := by
    simp only [closeFailed, held, if_neg watched]
  rw [closed]
  have sane := close_sane sound.toSane watched held (sound.attended fd number watched mapped)
  refine ⟨⟨⟨sane, ?_, ?_, sound.once⟩, sound.apart⟩, trace_record .., fun other differs =>
    trace_record_of_ne _ _ differs⟩
  · intro element member
    have suited := sound.suited element member
    have differs : element.channel ≠ number := by
      intro same
      exact sound.apart element member fd (same ▸ mapped)
    refine ⟨suited.kind, suited.known, ?_, ?_⟩
    · rw [trace_record_of_ne _ _ differs]
      exact suited.usable
    · intro add
      obtain ⟨unseen, owned⟩ := suited.added add
      rw [trace_record_of_ne _ _ differs]
      refine ⟨unseen, ?_⟩
      intro other named positive
      have belongs := owned other named positive
      have apart' : other ≠ fd := by
        rintro rfl
        exact differs (Option.some.inj (belongs.symm.trans held))
      exact (Function.update_of_ne apart' ..).trans belongs
  · intro event member absent
    have before := sound.reports event member
    exact before ((Function.update_of_ne (apart event member) ..).symm.trans absent)

/-- A call that ends nothing is recorded between two operations. -/
theorem Sound.recorded (sound : Sound server) {ready : Nat → Bytes} {calls : List Call}
    (sane : Sane ({ server with ready }.record number calls))
    (mild : ∀ call ∈ calls, call.Mild) :
    Sound ({ server with ready }.record number calls) ∧
      Stays server ({ server with ready }.record number calls) := by
  have stays := @stays_record server number calls ready mild
  exact ⟨⟨sane.steady sound.toSteady stays (.inl rfl), sound.apart⟩, stays⟩

theorem handleRead_sound (sound : Sound server) {channel : Channel} {reading : Reading}
    {actions : List OwnAction} (place : server.registry.channels[number]? = some channel)
    (watched : server.registry.kernel.registered channel.fd ≠ none)
    (mapped : server.registry.channelMap channel.fd = some number)
    (apart : ∀ event ∈ server.reported, event.fd ≠ channel.fd)
    (success : server.handleRead number reading actions = .ok next) :
    (reading.bytes (server.ready number) = [] ∧ Closed server next number channel.fd) ∨
      reading.bytes (server.ready number) ≠ [] ∧ Sound next ∧ Stays server next := by
  obtain ⟨owner, found, held⟩ := sound.watched _ watched
  cases mapped.symm.trans found
  have usable := sound.usable _ _ held
  have known : server.registry.fdOf number ≠ none := by
    rw [Registry.fdOf_eq place]
    exact Option.some_ne_none _
  obtain ⟨kept, stays⟩ := sound.recordUse known usable (.inl rfl)
  unfold handleRead at success
  cases bytes : reading.bytes (server.ready number) with
  | nil =>
    left
    simp only [bytes] at success
    obtain ⟨last, owned, fits, own, others⟩ :=
      closeConnection_closed kept place watched mapped apart success
    refine ⟨rfl, last, owned, fits, ?_, ?_⟩
    · obtain ⟨before, after, shape, longer, drained, mild⟩ := own
      rw [trace_record] at longer
      exact ⟨before, after, shape, (List.prefix_append ..).trans longer, drained, mild⟩
    · intro other differs
      obtain ⟨calls, more, mild⟩ := others other differs
      rw [trace_record_of_ne _ _ differs] at more
      exact ⟨calls, more, mild⟩
  | cons byte rest =>
    right
    simp only [bytes] at success
    have start : byte :: rest <+: server.ready number := by
      rw [← bytes]
      cases reading with
      | received more => exact List.take_prefix ..
      | failed => exact List.nil_prefix
    obtain ⟨left, whole⟩ := start
    have remains : (server.ready number).drop (rest.length + 1) = left := by
      rw [← whole]
      exact List.drop_left
    rw [remains] at success
    have unseen := sound.attended _ _ watched mapped
    have recordable : Recordable server number [.read, .message (byte :: rest)] left := by
      refine ⟨known, (sound.orderly number).pair usable (by simp [Permitted, unseen]), by simp, ?_⟩
      change server.ready number ++ [] = (byte :: rest) ++ [] ++ left
      rw [List.append_nil, List.append_nil, whole]
    have passed := recordable.sane sound.toSane (by simp) (by simp)
    obtain ⟨still, stays'⟩ := sound.recorded passed (by simp [Call.Mild])
    have callable : Callable ({ server with
        ready := Function.update server.ready number left }.record number
          [.read, .message (byte :: rest)]) true number :=
      ⟨known, fun closed => usable (stays'.close.mp closed), by simp⟩
    obtain ⟨last, stays'', _⟩ := actAll_sound still callable success
    exact ⟨List.cons_ne_nil _ _, last, stays'.trans stays''⟩

end Server

end Yolanda.App
