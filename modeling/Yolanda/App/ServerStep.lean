import Yolanda.App.LoopInvariant
import Yolanda.App.ServerInvariant

/-! What the steps of a server keep, and what they do for each connection. -/

namespace Yolanda.App

open Foundation

namespace Server

/-- The tables are ready for the pending list, and what was reported is watched. -/
structure Steady (server : Server) : Prop extends Sane server where
  suited : ∀ element ∈ server.pending, Suited server element
  reports : ∀ event ∈ server.reported, server.registry.kernel.registered event.fd ≠ none
  once : (server.reported.map EpollEvent.fd).Nodup

/-- Between the calls of its own thread the pending list is about channels that are not in the
map. -/
structure Sound (server : Server) : Prop extends Steady server where
  apart : ∀ element ∈ server.pending, ∀ fd,
    server.registry.channelMap fd ≠ some element.channel

/-- A channel for which the callbacks of the application may be called. -/
structure Callable (server : Server) (own : Bool) (number : Nat) : Prop where
  known : server.registry.fdOf number ≠ none
  usable : .close ∉ server.trace number
  apart : own = false → ∀ fd, server.registry.channelMap fd ≠ some number

variable {server next : Server} {own : Bool} {number : Nat} {fd : Int}

/-- Operations that leave the reports and the pending list alone keep the rest. -/
theorem Sane.steady (sane : Sane next) (steady : Steady server) (stays : Stays server next)
    (pending : next.pending = server.pending ∨ next.pending = []) : Steady next := by
  refine ⟨sane, ?_, ?_, ?_⟩
  · intro element member
    rcases pending with same | none
    · exact (steady.suited element (same ▸ member)).stays stays
    · rw [none] at member
      cases member
  · intro event member
    rw [stays.reported] at member
    exact stays.registered _ (steady.reports event member)
  · rw [stays.reported]
    exact steady.once

/-- The tables do not depend on the lists of what is to be done. -/
theorem Sane.withLists (sane : Sane server) (pending : List (ChannelElement Nat))
    (reported : List EpollEvent) : Sane { server with
      pending
      reported } :=
  ⟨⟨sane.watched, sane.mapped, sane.owned⟩, ⟨sane.usable, sane.lost, sane.attended, sane.fresh,
    sane.orderly, sane.roles, sane.conserved⟩⟩

theorem handlePendingChannel_sound (steady : Steady server)
    (success : server.handlePendingChannel = .ok next) : Sound next ∧ Stays server next := by
  obtain ⟨handled, all, rest⟩ := bind_eq_ok.mp success
  cases rest
  obtain ⟨sane, stays, _⟩ := handleAll_sane steady.toSane steady.suited all
  have stays' : Stays server { handled with pending := [] } :=
    ⟨stays.names, stays.owned, stays.registered, stays.fits, stays.reported, stays.trace⟩
  have sane' : Sane { handled with pending := [] } := sane.withLists [] handled.reported
  exact ⟨⟨sane'.steady steady stays' (.inr rfl), nofun⟩, stays'⟩

/-- One more operation at the end of the pending list. -/
theorem Sound.queue (sound : Sound server) {type : Nat} (suited : Suited server ⟨type, number⟩) :
    Steady { server with toEventLoop := server.channelBufferNolock number type } := by
  refine ⟨sound.withLists _ server.reported, ?_, sound.reports, sound.once⟩
  intro element member
  have whole : Suited server element := by
    rcases List.mem_append.mp member with early | last
    · exact sound.suited element early
    · rw [List.mem_singleton.mp last]
      exact suited
  exact ⟨whole.kind, whole.known, whole.usable, whole.added⟩

theorem stays_queue (server : Server) (channel type : Nat) :
    Stays server { server with toEventLoop := server.channelBufferNolock channel type } :=
  .of_eq rfl rfl rfl rfl rfl fun _ => trace_kept rfl

theorem doChannelEvent_sound (sound : Sound server) {type : Nat}
    (suited : Suited server ⟨type, number⟩)
    (apart : own = false → ∀ fd, server.registry.channelMap fd ≠ some number)
    (success : server.doChannelEvent own number type = .ok next) :
    Sound next ∧ Stays server next ∧ (own = false → next.registry = server.registry) := by
  have queued := sound.queue suited
  cases own with
  | true =>
    obtain ⟨kept, stays⟩ := handlePendingChannel_sound queued success
    exact ⟨kept, (stays_queue server number type).trans stays, nofun⟩
  | false =>
    cases success
    refine ⟨⟨queued, ?_⟩, stays_queue server number type, fun _ => rfl⟩
    intro element member
    rcases List.mem_append.mp member with early | last
    · exact sound.apart element early
    · rw [List.mem_singleton.mp last]
      exact apart rfl

/-- Other events of a channel are no other tables. -/
theorem Sound.setChannel (sound : Sound server) {channel changed : Channel}
    (place : server.registry.channels[number]? = some channel) (same : changed.fd = channel.fd)
    (role : changed.eventReadCallback = channel.eventReadCallback) :
    let registry := { server.registry with channels := server.registry.channels.set number changed }
    Sound { server with registry } ∧ Stays server { server with registry } := by
  intro registry
  have inside := (List.getElem?_eq_some_iff.mp place).1
  have fdOf : registry.fdOf = server.registry.fdOf := by
    funext other
    unfold Registry.fdOf
    by_cases here : number = other
    · subst here
      simp only [registry, List.getElem?_set_self inside, place, Option.map_some, same]
    · simp only [registry, List.getElem?_set_ne here]
  have size : registry.channels.length = server.registry.channels.length := List.length_set
  have sane : Sane { server with registry } := by
    refine ⟨⟨sound.watched, ?_, ?_⟩, ⟨sound.usable, ?_, sound.attended, ?_, sound.orderly, ?_,
      sound.conserved⟩⟩
    · intro fd other found
      rw [fdOf]
      exact sound.mapped fd other found
    · intro fd other held
      rw [fdOf]
      exact sound.owned fd other held
    · intro fd other named
      rw [fdOf] at named
      exact sound.lost fd other named
    · intro other beyond
      rw [size] at beyond
      exact sound.fresh other beyond
    · intro other found there
      by_cases here : number = other
      · subst here
        simp only [registry, List.getElem?_set_self inside, Option.some.injEq] at there
        subst there
        rw [role, same]
        exact sound.roles number channel place
      · simp only [registry, List.getElem?_set_ne here] at there
        exact sound.roles other found there
  have stays : Stays server { server with registry } :=
    .of_eq fdOf rfl rfl rfl rfl fun _ => trace_kept rfl
  exact ⟨⟨sane.steady sound.toSteady stays (.inl rfl), sound.apart⟩, stays⟩

theorem Callable.stays (callable : Callable server own number) (stays : Stays server next)
    (apart : own = false → ∀ fd, next.registry.channelMap fd ≠ some number) :
    Callable next own number := by
  obtain ⟨fd, named⟩ := Option.ne_none_iff_exists'.mp callable.known
  refine ⟨?_, fun closed => callable.usable (stays.close.mp closed), apart⟩
  rw [stays.names number fd named]
  exact nofun

theorem change_sound (sound : Sound server) (callable : Callable server own number)
    {enable : Bool} (success : server.change own number enable = .ok next) :
    Sound next ∧ Stays server next ∧ Callable next own number := by
  obtain ⟨channel, place⟩ := Registry.fdOf_ne_none.mp callable.known
  unfold change at success
  simp only [place] at success
  have role : (if enable then channel.writeEventEnable else
      channel.writeEventDisable).eventReadCallback = channel.eventReadCallback := by
    cases enable with
    | true => rfl
    | false => rfl
  obtain ⟨changed, first⟩ := sound.setChannel place (channel.fd_ofEnable enable) role
  have still := callable.stays first callable.apart
  have suited : Suited _ ⟨3, number⟩ := ⟨nofun, still.known, still.usable, nofun⟩
  obtain ⟨kept, second, same⟩ := doChannelEvent_sound changed suited still.apart success
  refine ⟨kept, first.trans second, still.stays second ?_⟩
  intro other
  rw [same other]
  exact still.apart other

theorem Sound.recordUse (sound : Sound server) (known : server.registry.fdOf number ≠ none)
    {call : Call} (usable : .close ∉ server.trace number)
    (use : call = .read ∨ call = .write ∨ call = .shutdown ∨ call = .epollCtl) :
    Sound (server.record number [call]) ∧ Stays server (server.record number [call]) := by
  have stays : Stays server (server.record number [call]) := by
    apply stays_record
    rcases use with rfl | rfl | rfl | rfl <;>
    simp [Call.Mild]
  have sane := sound.toSane.recordUse known usable use
  exact ⟨⟨sane.steady sound.toSteady stays (.inl rfl), sound.apart⟩, stays⟩

theorem act_sound (sound : Sound server) (callable : Callable server own number)
    {action : OwnAction} (success : server.act own number action = .ok next) :
    Sound next ∧ Stays server next ∧ Callable next own number := by
  cases action with
  | write =>
    cases success
    obtain ⟨kept, stays⟩ := sound.recordUse callable.known callable.usable (.inr (.inl rfl))
    exact ⟨kept, stays, callable.stays stays callable.apart⟩
  | shutdown =>
    cases success
    obtain ⟨kept, stays⟩ :=
      sound.recordUse callable.known callable.usable (.inr (.inr (.inl rfl)))
    exact ⟨kept, stays, callable.stays stays callable.apart⟩
  | enable => exact change_sound sound callable success
  | disable => exact change_sound sound callable success

theorem actAll_sound {actions : List OwnAction} (sound : Sound server)
    (callable : Callable server own number) (success : server.actAll own number actions = .ok next) :
    Sound next ∧ Stays server next ∧ Callable next own number := by
  induction actions generalizing server with
  | nil =>
    cases success
    exact ⟨sound, .refl _, callable⟩
  | cons action actions ih =>
    obtain ⟨middle, first, rest⟩ := bind_eq_ok.mp success
    obtain ⟨kept, stays, still⟩ := act_sound sound callable first
    obtain ⟨last, stays', still'⟩ := ih kept still rest
    exact ⟨last, stays.trans stays', still'⟩

section Extend

variable {channel : Channel} {kernel : Kernel} {owned : Int → Option Nat} {calls : List Call}
variable {other : Nat}

/-- The server with one more channel. -/
def extend (server : Server) (channel : Channel) (kernel : Kernel) (owned : Int → Option Nat)
    (calls : List Call) : Server :=
  { server with
    registry := { server.registry with
      kernel
      channels := server.registry.channels ++ [channel] }
    owned
    trace := Function.update server.trace server.registry.channels.length calls }

/-- The new channel has its descriptor, if it is one. -/
structure Extended (server : Server) (channel : Channel) (kernel : Kernel)
    (owned : Int → Option Nat) (calls : List Call) : Prop where
  registered : kernel.registered = server.registry.kernel.registered
  opened : ∀ fd, server.registry.kernel.opened fd = true → kernel.opened fd = true
  fresh : 0 ≤ channel.fd → kernel.opened channel.fd = true
  owns : ∀ fd number, owned fd = some number ↔ server.owned fd = some number ∨
    number = server.registry.channels.length ∧ fd = channel.fd ∧ 0 ≤ channel.fd
  few : calls = [] ∨ calls = [.accept]
  role : .accept ∈ calls ↔ channel.eventReadCallback = some .handleRead ∧ 0 ≤ channel.fd

@[simp] theorem trace_extend_self :
    (server.extend channel kernel owned calls).trace server.registry.channels.length = calls :=
  Function.update_self ..

theorem trace_extend_of_ne (differs : other ≠ server.registry.channels.length) :
    (server.extend channel kernel owned calls).trace other = server.trace other :=
  Function.update_of_ne differs ..

theorem channels_extend_of_ne (differs : other ≠ server.registry.channels.length) :
    (server.extend channel kernel owned calls).registry.channels[other]? =
      server.registry.channels[other]? := by
  unfold extend
  rcases Nat.lt_or_gt_of_ne differs with inside | beyond
  · exact List.getElem?_append_left inside
  · rw [List.getElem?_append_right (Nat.le_of_lt beyond), List.getElem?_eq_none (Nat.le_of_lt beyond)]
    exact List.getElem?_eq_none (Nat.sub_pos_of_lt beyond)

theorem fdOf_extend_self :
    (server.extend channel kernel owned calls).registry.fdOf server.registry.channels.length =
      some channel.fd :=
  congrArg (Option.map Channel.fd) List.getElem?_concat_length

theorem fdOf_extend_of_ne (differs : other ≠ server.registry.channels.length) :
    (server.extend channel kernel owned calls).registry.fdOf other = server.registry.fdOf other :=
  congrArg (Option.map Channel.fd) (channels_extend_of_ne differs)

theorem ne_of_fdOf (named : server.registry.fdOf other = some fd) :
    other ≠ server.registry.channels.length := by
  obtain ⟨found, place, _⟩ := Registry.fdOf_eq_some.mp named
  exact Nat.ne_of_lt (List.getElem?_eq_some_iff.mp place).1

namespace Extended

theorem mild (extended : Extended server channel kernel owned calls) :
    ∀ call ∈ calls, call.Mild := by
  rcases extended.few with rfl | rfl <;>
  simp [Call.Mild]

theorem stays (extended : Extended server channel kernel owned calls) (sane : Sane server) :
    Stays server (server.extend channel kernel owned calls) := by
  have blank := sane.fresh server.registry.channels.length (Nat.le_refl _)
  refine ⟨?_, fun fd other held => (extended.owns fd other).mpr (.inl held), ?_, ?_, rfl, ?_⟩
  · intro other fd named
    rw [fdOf_extend_of_ne (ne_of_fdOf named)]
    exact named
  · intro fd present
    rwa [← extended.registered] at present
  · intro fd fit mapped
    have before := fit mapped
    rwa [← extended.registered] at before
  · intro other
    by_cases same : other = server.registry.channels.length
    · rw [same, trace_extend_self, blank]
      exact ⟨calls, rfl, extended.mild⟩
    · exact trace_kept (trace_extend_of_ne same)

theorem tables (extended : Extended server channel kernel owned calls) (sane : Sane server) :
    Tables (server.extend channel kernel owned calls) := by
  have stays := extended.stays sane
  refine ⟨?_, ?_, ?_⟩
  · intro fd registered
    change kernel.registered fd ≠ none at registered
    rw [extended.registered] at registered
    obtain ⟨other, found, held⟩ := sane.watched fd registered
    exact ⟨other, found, stays.owned fd other held⟩
  · intro fd other found
    obtain ⟨usable, named⟩ := sane.mapped fd other found
    exact ⟨usable, stays.names other fd named⟩
  · intro fd other held
    rcases (extended.owns fd other).mp held with old | ⟨rfl, rfl, usable⟩
    · obtain ⟨named, opened⟩ := sane.owned fd other old
      exact ⟨stays.names other fd named, extended.opened fd opened⟩
    · exact ⟨fdOf_extend_self, extended.fresh usable⟩

theorem traces (extended : Extended server channel kernel owned calls) (sane : Sane server) :
    Traces (server.extend channel kernel owned calls) := by
  have stays := extended.stays sane
  have blank := sane.fresh server.registry.channels.length (Nat.le_refl _)
  refine ⟨?_, ?_, ?_, ?_, ?_, ?_, ?_⟩
  · intro fd other held
    rcases (extended.owns fd other).mp held with old | ⟨rfl, _⟩
    · rw [stays.close]
      exact sane.usable fd other old
    · rw [trace_extend_self]
      exact fun closed => (extended.mild _ closed).1 rfl
  · intro fd other named usable unheld
    by_cases same : other = server.registry.channels.length
    · subst same
      cases fdOf_extend_self.symm.trans named
      exact absurd ((extended.owns _ _).mpr (.inr ⟨rfl, rfl, usable⟩)) unheld
    · rw [fdOf_extend_of_ne same] at named
      rw [stays.close]
      exact sane.lost fd other named usable fun held => unheld (stays.owned fd other held)
  · intro fd other registered found
    rw [stays.unwatched]
    change kernel.registered fd ≠ none at registered
    rw [extended.registered] at registered
    exact sane.attended fd other registered found
  · intro other beyond
    have later : server.registry.channels.length + 1 ≤ other := by
      simpa [extend] using beyond
    rw [trace_extend_of_ne (Nat.ne_of_gt later)]
    exact sane.fresh other (Nat.le_of_succ_le later)
  · intro other
    by_cases same : other = server.registry.channels.length
    · rw [same, trace_extend_self]
      rcases extended.few with rfl | rfl
      · exact .nil
      · exact Orderly.nil.concat rfl
    · rw [trace_extend_of_ne same]
      exact sane.orderly other
  · intro other found place
    by_cases same : other = server.registry.channels.length
    · subst same
      cases List.getElem?_concat_length.symm.trans place
      rw [trace_extend_self]
      exact extended.role
    · rw [channels_extend_of_ne same] at place
      rw [trace_extend_of_ne same]
      exact sane.roles other found place
  · intro other
    have before := sane.conserved other
    by_cases same : other = server.registry.channels.length
    · subst same
      rw [blank] at before
      rw [trace_extend_self]
      rcases extended.few with rfl | rfl
      · exact before
      · exact before
    · rw [trace_extend_of_ne same]
      exact before

end Extended

theorem Sound.extend (sound : Sound server) (extended : Extended server channel kernel owned calls) :
    let later := server.extend channel kernel owned calls
    Sound later ∧ Stays server later ∧ Callable later own server.registry.channels.length ∧
      Suited later ⟨1, server.registry.channels.length⟩ := by
  intro later
  have stays := extended.stays sound.toSane
  have sane : Sane later := ⟨extended.tables sound.toSane, extended.traces sound.toSane⟩
  have traced : later.trace server.registry.channels.length = calls := trace_extend_self
  have here : later.registry.fdOf server.registry.channels.length = some channel.fd :=
    fdOf_extend_self
  have usable : .close ∉ later.trace server.registry.channels.length := by
    rw [traced]
    exact fun closed => (extended.mild _ closed).1 rfl
  have known : later.registry.fdOf server.registry.channels.length ≠ none := by
    rw [here]
    exact nofun
  refine ⟨⟨sane.steady sound.toSteady stays (.inl rfl), sound.apart⟩, stays,
    ⟨known, usable, ?_⟩, ⟨nofun, known, usable, ?_⟩⟩
  · intro _ fd found
    exact ne_of_fdOf (sound.mapped fd _ found).2 rfl
  · intro _
    refine ⟨?_, ?_⟩
    · rw [traced]
      exact fun ended => (extended.mild _ ended).2.1 rfl
    · intro fd named positive
      cases here.symm.trans named
      exact (extended.owns channel.fd _).mpr (.inr ⟨rfl, rfl, positive⟩)

end Extend

theorem role_channel (role : Role) (number : Nat) (fd : Int) :
    (role.channel number fd).fd = fd ∧
      ((role.channel number fd).eventReadCallback = some .handleRead ↔ role = .connection) := by
  cases role with
  | wakeup => exact ⟨rfl, nofun, nofun⟩
  | listening => exact ⟨rfl, nofun, nofun⟩
  | connection => exact ⟨rfl, fun _ => rfl, fun _ => rfl⟩

/-- A channel whose descriptor is none owns nothing. -/
private theorem extended_negative {channel : Channel} (negative : channel.fd < 0) :
    Extended server channel server.registry.kernel server.owned [] := by
  refine ⟨rfl, fun _ => id, ?_, ?_, .inl rfl, ?_⟩
  · intro usable
    exact absurd negative (Int.not_lt.mpr usable)
  · intro fd owner
    refine ⟨.inl, ?_⟩
    rintro (held | ⟨_, _, usable⟩)
    · exact held
    · exact absurd negative (Int.not_lt.mpr usable)
  · constructor
    · intro member
      cases member
    · intro both
      exact absurd negative (Int.not_lt.mpr both.2)

/-- A channel owns the descriptor that is opened for it. -/
private theorem extended_opened (sound : Sound server) {role : Role} (usable : 0 ≤ fd)
    (opened : server.registry.kernel.opened fd = false) :
    Extended server (role.channel server.registry.channels.length fd)
      (server.registry.kernel.takeDescriptor fd)
      (Function.update server.owned fd (some server.registry.channels.length))
      (if role = .connection then [.accept] else []) := by
  obtain ⟨place, callback⟩ := role_channel role server.registry.channels.length fd
  have unowned : server.owned fd = none := by
    by_contra held
    obtain ⟨owner, own⟩ := Option.ne_none_iff_exists'.mp held
    rw [(sound.owned fd owner own).2] at opened
    cases opened
  refine ⟨rfl, ?_, ?_, ?_, ?_, ?_⟩
  · intro other isOpen
    by_cases same : other = fd
    · simp [Kernel.takeDescriptor, same]
    · simpa [Kernel.takeDescriptor, same] using isOpen
  · intro _
    rw [place]
    exact Function.update_self ..
  · intro other owner
    rw [place]
    by_cases same : other = fd
    · subst same
      rw [Function.update_self, unowned]
      constructor
      · intro held
        exact .inr ⟨(Option.some.inj held).symm, rfl, usable⟩
      · rintro (held | ⟨rfl, _⟩)
        · cases held
        · rfl
    · rw [Function.update_of_ne same]
      exact ⟨.inl, fun held => held.resolve_right fun new => same new.2.1⟩
  · by_cases connection : role = .connection
    · exact .inr (if_pos connection)
    · exact .inl (if_neg connection)
  · rw [callback, place]
    by_cases connection : role = .connection
    · simp [connection, usable]
    · simp [connection]

/-- A new channel is in the tables, and asks to be added. -/
theorem hold_sound (sound : Sound server) {role : Role} {built : EventLoop}
    (success : server.build role fd = some built) :
    let number := server.registry.channels.length
    let later := server.hold built role fd
    Sound later ∧ Stays server later ∧ Callable later own number ∧ Suited later ⟨1, number⟩ := by
  intro number later
  have traced : Function.update server.trace number [] = server.trace := by
    rw [← sound.fresh number (Nat.le_refl _), Function.update_eq_self]
  unfold EventLoop.build at success
  by_cases negative : fd < 0
  · simp only [if_pos negative, Option.some.injEq] at success
    have extended : Extended server (role.channel number fd) server.registry.kernel server.owned [] :=
      extended_negative (by rwa [(role_channel role number fd).1])
    have same : later = server.extend (role.channel number fd) server.registry.kernel server.owned
        [] := by
      simp only [later, hold, if_pos negative, ← success, Server.extend]
      rw [traced]
    rw [same]
    exact @Sound.extend server own _ _ _ _ sound extended
  · simp only [if_neg negative] at success
    cases opened : server.registry.kernel.opened fd with
    | true =>
      simp only [opened, if_true] at success
      cases success
    | false =>
      simp only [opened, Bool.false_eq_true, if_false, Option.some.injEq] at success
      have extended := @extended_opened server fd sound role (Int.not_lt.mp negative) opened
      have same : later = server.extend (role.channel number fd)
          (server.registry.kernel.takeDescriptor fd)
          (Function.update server.owned fd (some number))
          (if role = .connection then [.accept] else []) := by
        simp only [later, hold, if_neg negative, ← success, Server.extend]
        by_cases connection : role = .connection
        · simp only [if_pos connection, record]
          rw [sound.fresh number (Nat.le_refl _)]
          rfl
        · simp only [if_neg connection]
          rw [traced]
      rw [same]
      exact @Sound.extend server own _ _ _ _ sound extended

theorem establish_sound (sound : Sound server) {role : Role} {completed : List OwnAction}
    (success : server.establish own role fd completed = .ok next) :
    Sound next ∧ Stays server next := by
  unfold establish at success
  cases built : server.build role fd with
  | none =>
    simp only [built] at success
    cases success
    exact ⟨sound, .refl _⟩
  | some loop =>
    simp only [built] at success
    obtain ⟨ready, called, added⟩ := bind_eq_ok.mp success
    obtain ⟨kept, stays, callable, suited⟩ := @hold_sound server own fd sound role loop built
    obtain ⟨still, stays', callable'⟩ := actAll_sound kept callable called
    obtain ⟨last, stays'', _⟩ :=
      doChannelEvent_sound still (suited.stays stays') callable'.apart added
    exact ⟨last, (stays.trans stays').trans stays''⟩

end Server

end Yolanda.App
