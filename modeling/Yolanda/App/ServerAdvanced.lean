import Yolanda.App.ServerEnds

/-! What a step of a server does for each connection. -/

namespace Yolanda.App

open Foundation

namespace Server

variable {server next : Server} {own : Bool} {number : Nat} {fd : Int}

/-- The channel behind an entry of the map. -/
theorem activated_eq (sane : Sane server) (mapped : server.registry.channelMap fd = some number) :
    ∃ channel, server.registry.activated fd = .ok (some (number, channel)) ∧
      server.registry.channels[number]? = some channel ∧ channel.fd = fd := by
  obtain ⟨usable, named⟩ := sane.mapped fd number mapped
  obtain ⟨channel, place, same⟩ := Registry.fdOf_eq_some.mp named
  refine ⟨channel, ?_, place, same⟩
  unfold Registry.activated
  rw [if_neg (Int.not_lt.mpr usable), mapped]
  simp only [Registry.channelAt_ok.mpr place, ok_bind, if_neg (not_not_intro same.symm)]
  rfl

theorem writeCallback_sound (sound : Sound server) {channel : Channel} {answers : Answers}
    (place : server.registry.channels[number]? = some channel)
    (watched : server.registry.kernel.registered channel.fd ≠ none)
    (mapped : server.registry.channelMap channel.fd = some number)
    (success : server.writeCallback number channel answers = .ok next) :
    Sound next ∧ Stays server next := by
  unfold writeCallback at success
  split at success
  case h_1 =>
    obtain ⟨owner, found, held⟩ := sound.watched _ watched
    cases mapped.symm.trans found
    have usable := sound.usable _ _ held
    have unseen := sound.attended _ _ watched mapped
    have known : server.registry.fdOf number ≠ none := by
      rw [Registry.fdOf_eq place]
      exact Option.some_ne_none _
    have recordable : Recordable server number [.handleWrite, .write] (server.ready number) := by
      refine ⟨known, (sound.orderly number).pair unseen ?_, by simp, List.append_nil _⟩
      simp [Permitted, usable]
    have recorded := recordable.sane sound.toSane (by simp) (by simp)
    rw [Function.update_eq_self] at recorded
    obtain ⟨still, stays⟩ := sound.recorded recorded (by simp [Call.Mild])
    have callable : Callable (server.record number [.handleWrite, .write]) true number :=
      ⟨known, fun closed => usable (stays.close.mp closed), by simp⟩
    obtain ⟨last, stays', _⟩ := actAll_sound still callable success
    exact ⟨last, stays.trans stays'⟩
  case h_2 =>
    cases success
    exact ⟨sound, .refl _⟩

theorem activateWrite_sound (sound : Sound server) {answers : Answers}
    (fits : server.registry.channelMap fd ≠ none → server.registry.kernel.registered fd ≠ none)
    (success : server.activateWrite fd answers = .ok next) : Sound next ∧ Stays server next := by
  obtain ⟨found, activated, rest⟩ := bind_eq_ok.mp success
  cases mapped : server.registry.channelMap fd with
  | none =>
    have nothing : server.registry.activated fd = .ok none := by
      unfold Registry.activated
      rw [mapped]
      exact ite_self _
    cases nothing.symm.trans activated
    cases rest
    exact ⟨sound, .refl _⟩
  | some number =>
    obtain ⟨channel, found', place, same⟩ := activated_eq sound.toSane mapped
    cases found'.symm.trans activated
    have watched := fits (by rw [mapped]; exact nofun)
    rw [← same] at watched mapped
    exact writeCallback_sound sound place watched mapped rest

/-- The rest of the process may open and close what the loop does not own. -/
theorem Sound.reopen (sound : Sound server) {opened : Int → Bool}
    (still : ∀ fd number, server.owned fd = some number → opened fd = true) :
    let registry := { server.registry with kernel := { server.registry.kernel with opened } }
    Sound { server with registry } ∧ Stays server { server with registry } := by
  intro registry
  have sane : Sane { server with registry } :=
    ⟨⟨sound.watched, sound.mapped, fun fd number own =>
        ⟨(sound.owned fd number own).1, still fd number own⟩⟩,
      ⟨sound.usable, sound.lost, sound.attended, sound.fresh, sound.orderly, sound.roles,
        sound.conserved⟩⟩
  have stays : Stays server { server with registry } :=
    .of_eq rfl rfl rfl rfl rfl fun _ => trace_kept rfl
  exact ⟨⟨sane.steady sound.toSteady stays (.inl rfl), sound.apart⟩, stays⟩

theorem takeDescriptor_sound (sound : Sound server) (fd : Int) :
    Sound { server with toEventLoop := server.takeDescriptor fd } ∧
      Stays server { server with toEventLoop := server.takeDescriptor fd } := by
  unfold EventLoop.takeDescriptor
  by_cases negative : fd < 0
  · rw [if_pos negative]
    exact ⟨sound, .refl server⟩
  · rw [if_neg negative]
    apply sound.reopen
    intro other number own
    by_cases same : other = fd
    · rw [same]
      exact Function.update_self ..
    · rw [Function.update_of_ne same]
      exact (sound.owned other number own).2

/-- The reads of a channel end it, when it is a connection and nothing is read. -/
theorem readCallback_sound (sound : Sound server) {channel : Channel} {answers : Answers}
    (place : server.registry.channels[number]? = some channel)
    (watched : server.registry.kernel.registered channel.fd ≠ none)
    (mapped : server.registry.channelMap channel.fd = some number)
    (apart : ∀ event ∈ server.reported, event.fd ≠ channel.fd)
    (success : server.readCallback number channel answers = .ok next) :
    (channel.eventReadCallback = some .handleRead ∧
      answers.reading.bytes (server.ready number) = [] ∧ Closed server next number channel.fd) ∨
    ¬ (channel.eventReadCallback = some .handleRead ∧
      answers.reading.bytes (server.ready number) = []) ∧ Sound next ∧ Stays server next := by
  unfold readCallback at success
  split at success
  case h_1 role =>
    right
    refine ⟨fun both => (nomatch role.symm.trans both.1), ?_⟩
    split at success
    · exact establish_sound sound success
    · cases success
      exact takeDescriptor_sound sound _
  case h_2 role =>
    rcases handleRead_sound sound place watched mapped apart success with
      ⟨none, closed⟩ | ⟨some, kept, stays⟩
    · exact .inl ⟨role, none, closed⟩
    · exact .inr ⟨fun both => some both.2, kept, stays⟩
  case h_3 _ other =>
    right
    cases success
    exact ⟨fun both => other both.1, sound, .refl _⟩

/-- What a step has done to a channel that it did not end. -/
def Mildly (server next : Server) (number : Nat) : Prop :=
  ∃ calls, next.trace number = server.trace number ++ calls ∧ ∀ call ∈ calls, call.Mild

theorem Mildly.trans {middle : Server} (first : Mildly server middle number)
    (second : Mildly middle next number) : Mildly server next number := by
  obtain ⟨calls, early, mild⟩ := first
  obtain ⟨more, late, mild'⟩ := second
  refine ⟨calls ++ more, by rw [late, early, List.append_assoc], ?_⟩
  intro call member
  exact (List.mem_append.mp member).elim (mild call) (mild' call)

theorem Closed.stays {middle : Server} (closed : Closed server middle number fd)
    (sound : Sound next) (stays : Stays middle next) : Closed server next number fd := by
  refine ⟨sound, fun fd number own => stays.owned fd number (closed.owned fd number own),
    stays.fits fd closed.fits, ?_,
    fun other differs => Mildly.trans (closed.others other differs) (stays.trace other)⟩
  obtain ⟨before, after, shape, longer, drained, mild⟩ := closed.own
  obtain ⟨more, rest, mild'⟩ := stays.trace number
  refine ⟨before, after ++ more, by rw [rest, shape]; simp, longer, drained, ?_⟩
  intro call member
  exact (List.mem_append.mp member).elim (mild call) (mild' call)

/-- The step dispatches an event of a connection. -/
structure Dispatches (server : Server) (event : ServerEvent) (head : EpollEvent)
    (answers : Answers) (number : Nat) : Prop where
  event : event = .dispatch answers
  first : server.reported.head? = some head
  mapped : server.registry.channelMap head.fd = some number
  role : (server.registry.channels[number]?).bind Channel.eventReadCallback = some .handleRead

/-- An event of the connection has `EPOLLERR` or `EPOLLHUP`. -/
def HangsUp (server : Server) (event : ServerEvent) (number : Nat) : Prop :=
  ∃ head answers, Dispatches server event head answers number ∧ head.failed = true

/-- The connection is read, and nothing comes: the stream has ended, or `readv` fails. -/
def ReadEnds (server : Server) (event : ServerEvent) (number : Nat) : Prop :=
  ∃ head answers, Dispatches server event head answers number ∧ head.failed = false ∧
    head.events &&& epollIn ≠ 0 ∧ answers.reading.bytes (server.ready number) = []

/-- What a step has done to the connections. -/
inductive Advanced (server : Server) (event : ServerEvent) (next : Server) : Prop where
  | mild (calm : ∀ number, ¬ HangsUp server event number ∧ ¬ ReadEnds server event number)
    (trace : ∀ number, Mildly server next number ∨
      .accept ∉ server.trace number ∧ .accept ∉ next.trace number)
  | hungUp {number : Nat} (hangs : HangsUp server event number)
    (calm : ∀ other, ¬ ReadEnds server event other)
    (own : next.trace number = server.trace number ++ [.close, .unwatched])
    (others : ∀ other, other ≠ number → Mildly server next other)
  | closed {number : Nat} (ends : ReadEnds server event number)
    (calm : ∀ other, ¬ HangsUp server event other)
    (closed : ∃ fd, Closed server next number fd)

/-- A step that dispatches nothing. -/
theorem Advanced.idle {event : ServerEvent}
    (idle : ∀ head answers number, ¬ Dispatches server event head answers number)
    (trace : ∀ number, Mildly server next number) : Advanced server event next := by
  refine .mild (fun number => ⟨?_, ?_⟩) fun number => .inl (trace number)
  · rintro ⟨head, answers, dispatches, _⟩
    exact idle head answers number dispatches
  · rintro ⟨head, answers, dispatches, _⟩
    exact idle head answers number dispatches

theorem Advanced.of_stays {event : ServerEvent} (stays : Stays server next)
    (other : ∀ answers, event ≠ .dispatch answers) : Advanced server event next :=
  .idle (fun _ answers _ dispatches => other answers dispatches.event) stays.trace

/-- Taking the next event from what was reported. The later ones are about other
descriptors. -/
theorem Sound.pop (sound : Sound server) {head : EpollEvent} {events : List EpollEvent}
    (reported : server.reported = head :: events) :
    Sound { server with reported := events } ∧
      server.registry.kernel.registered head.fd ≠ none ∧ ∀ event ∈ events, event.fd ≠ head.fd := by
  have once := sound.once
  rw [reported, List.map_cons, List.nodup_cons] at once
  have reports (event) (member : event ∈ head :: events) := sound.reports event (reported ▸ member)
  refine ⟨⟨⟨sound.withLists server.pending events, ?_, ?_, once.2⟩, sound.apart⟩,
    reports head (List.mem_cons_self ..), ?_⟩
  · intro element member
    have suited := sound.suited element member
    exact ⟨suited.kind, suited.known, suited.usable, suited.added⟩
  · exact fun event member => reports event (List.mem_cons_of_mem _ member)
  · intro event member same
    exact once.1 (List.mem_map.mpr ⟨event, member, same⟩)

theorem Dispatches.unique {event : ServerEvent} {head head' : EpollEvent}
    {answers answers' : Answers} {other : Nat}
    (dispatches : Dispatches server event head answers number)
    (dispatches' : Dispatches server event head' answers' other) :
    head = head' ∧ answers = answers' ∧ number = other := by
  obtain ⟨taken, first, mapped, _⟩ := dispatches
  obtain ⟨taken', first', mapped', _⟩ := dispatches'
  cases taken.symm.trans taken'
  cases first.symm.trans first'
  cases mapped.symm.trans mapped'
  exact ⟨rfl, rfl, rfl⟩

private theorem hangUp_advanced (sound : Sound server) {head : EpollEvent}
    {events : List EpollEvent} (answers : Answers) (reported : server.reported = head :: events)
    (failed : head.failed = true) :
    Sound (closeFailed { server with reported := events } head.fd) ∧
      Advanced server (.dispatch answers) (closeFailed { server with reported := events } head.fd) := by
  obtain ⟨popped, watched, apart⟩ := sound.pop reported
  obtain ⟨number, mapped, held⟩ := sound.watched _ watched
  have first : server.reported.head? = some head := by
    rw [reported]
    rfl
  have healthy (other : Nat) : ¬ ReadEnds server (.dispatch answers) other := by
    rintro ⟨head', answers', dispatches, sane, _⟩
    cases first.symm.trans dispatches.first
    rw [failed] at sane
    cases sane
  obtain ⟨kept, own, others⟩ := closeFailed_sound popped watched mapped apart
  have rest (other : Nat) (differs : other ≠ number) : Mildly server
      (closeFailed { server with reported := events } head.fd) other :=
    trace_kept (others other differs)
  refine ⟨kept, ?_⟩
  by_cases role : (server.registry.channels[number]?).bind Channel.eventReadCallback =
      some .handleRead
  · exact .hungUp ⟨head, answers, ⟨rfl, first, mapped, role⟩, failed⟩ healthy own rest
  · refine .mild (fun other => ⟨?_, healthy other⟩) ?_
    · rintro ⟨head', answers', dispatches, _⟩
      cases first.symm.trans dispatches.first
      cases mapped.symm.trans dispatches.mapped
      exact role dispatches.role
    · intro other
      by_cases here : other = number
      · right
        obtain ⟨channel, place, _⟩ := Registry.fdOf_eq_some.mp (sound.mapped _ _ mapped).2
        have refused : .accept ∉ server.trace number := by
          intro accepted
          have reads := ((sound.roles number channel place).mp accepted).1
          rw [place] at role
          exact role reads
        rw [here, own]
        exact ⟨refused, by simpa using refused⟩
      · exact .inl (rest other here)

/-- What the read callback of a healthy event has left: it has ended its connection, or nothing. -/
private theorem readPart_sound (sound : Sound server) {head : EpollEvent}
    {events : List EpollEvent} {answers : Answers} (reported : server.reported = head :: events)
    (healthy : head.failed = false) (mapped : server.registry.channelMap head.fd = some number)
    (success : (if head.events &&& epollIn ≠ 0 then
        activateRead { server with reported := events } head.fd answers
      else .ok { server with reported := events }) = .ok next) :
    (ReadEnds server (.dispatch answers) number ∧
      Closed { server with reported := events } next number head.fd) ∨
    (∀ other, ¬ ReadEnds server (.dispatch answers) other) ∧ Sound next ∧
      Stays { server with reported := events } next := by
  obtain ⟨popped, watched, apart⟩ := sound.pop reported
  have first : server.reported.head? = some head := by
    rw [reported]
    rfl
  by_cases readable : head.events &&& epollIn ≠ 0
  · rw [if_pos readable] at success
    obtain ⟨found, activated, called⟩ := bind_eq_ok.mp success
    obtain ⟨channel, activated', place, same⟩ := activated_eq popped.toSane mapped
    cases activated'.symm.trans activated
    have bound : (server.registry.channels[number]?).bind Channel.eventReadCallback =
        channel.eventReadCallback := by
      rw [show server.registry.channels[number]? = some channel from place]
      rfl
    rw [← same] at watched mapped apart
    rcases readCallback_sound popped place watched mapped apart called with
      ⟨role, none, closed⟩ | ⟨other, kept, stays⟩
    · rw [same] at mapped closed
      exact .inl ⟨⟨head, answers, ⟨rfl, first, mapped, bound.trans role⟩, healthy, readable, none⟩,
        closed⟩
    · refine .inr ⟨?_, kept, stays⟩
      rintro number' ⟨head', answers', dispatches, _, _, none⟩
      cases first.symm.trans dispatches.first
      cases dispatches.event
      rw [same] at mapped
      cases mapped.symm.trans dispatches.mapped
      exact other ⟨bound.symm.trans dispatches.role, none⟩
  · rw [if_neg readable] at success
    cases success
    refine .inr ⟨?_, popped, .refl _⟩
    rintro number' ⟨head', answers', dispatches, _, readable', _⟩
    cases first.symm.trans dispatches.first
    exact readable readable'

private theorem healthy_advanced (sound : Sound server) {head : EpollEvent}
    {events : List EpollEvent} {answers : Answers} (reported : server.reported = head :: events)
    (healthy : head.failed = false)
    (success : dispatchEvent { server with reported := events } head answers = .ok next) :
    Sound next ∧ Advanced server (.dispatch answers) next := by
  obtain ⟨popped, watched, apart⟩ := sound.pop reported
  obtain ⟨number, mapped, held⟩ := sound.watched _ watched
  have calm (other : Nat) : ¬ HangsUp server (.dispatch answers) other := by
    rintro ⟨head', answers', dispatches, failed⟩
    have first := dispatches.first
    rw [reported] at first
    cases first
    rw [healthy] at failed
    cases failed
  unfold dispatchEvent at success
  rw [if_neg (Bool.eq_false_iff.mp healthy)] at success
  obtain ⟨middle, read, written⟩ := bind_eq_ok.mp success
  have write (kept : Sound middle)
      (fits : middle.registry.channelMap head.fd ≠ none →
        middle.registry.kernel.registered head.fd ≠ none) : Sound next ∧ Stays middle next := by
    by_cases writable : head.events &&& epollOut ≠ 0
    · rw [if_pos writable] at written
      exact activateWrite_sound kept fits written
    · rw [if_neg writable] at written
      cases written
      exact ⟨kept, .refl _⟩
  rcases readPart_sound sound reported healthy mapped read with
    ⟨ends, closed⟩ | ⟨reads, kept, stays⟩
  · obtain ⟨last, stays'⟩ := write closed.sound closed.fits
    obtain ⟨_, owned, fits, own, others⟩ := closed.stays last stays'
    exact ⟨last, .closed ends calm ⟨head.fd, last, owned, fits, own, others⟩⟩
  · obtain ⟨last, stays'⟩ := write kept (stays.fits head.fd fun _ => watched)
    exact ⟨last, .mild (fun other => ⟨calm other, reads other⟩)
      fun other => .inl (Mildly.trans (stays.trace other) (stays'.trace other))⟩

theorem arrive_sound (sound : Sound server) {bytes : Bytes}
    (known : server.registry.fdOf number ≠ none) :
    let ready := Function.update server.ready number (server.ready number ++ bytes)
    Sound ({ server with ready }.record number [.arrive bytes]) ∧
      Stays server ({ server with ready }.record number [.arrive bytes]) := by
  intro ready
  apply sound.recorded
  · have recordable : Recordable server number [.arrive bytes] (server.ready number ++ bytes) := by
      refine ⟨known, (sound.orderly number).concat trivial, by simp, ?_⟩
      change server.ready number ++ (bytes ++ []) = [] ++ (server.ready number ++ bytes)
      rw [List.append_nil, List.nil_append]
    exact recordable.sane sound.toSane (by simp) (by simp)
  · simp [Call.Mild]

/-- What `epoll_wait` may report is watched, each descriptor once. -/
theorem Sound.report (sound : Sound server) {events : List EpollEvent}
    (allowed : server.mayReport events = true) : Sound { server with reported := events } := by
  unfold EventLoop.mayReport at allowed
  simp only [Bool.and_eq_true, List.all_eq_true, decide_eq_true_eq] at allowed
  obtain ⟨⟨⟨_, watched⟩, once⟩, _⟩ := allowed
  refine ⟨⟨sound.withLists server.pending events, ?_, ?_, once⟩, sound.apart⟩
  · intro element member
    have suited := sound.suited element member
    exact ⟨suited.kind, suited.known, suited.usable, suited.added⟩
  · exact fun event member => Option.isSome_iff_ne_none.mp (watched event member)

/-- The rest of the process closes a descriptor that is not of this loop. -/
theorem closes_sound (sound : Sound server) (unowned : server.owned fd = none) :
    let registry := { server.registry with kernel := server.registry.kernel.close fd }
    Sound { server with registry } ∧ Stays server { server with registry } := by
  have unwatched : server.registry.kernel.registered fd = none := by
    by_contra watched
    obtain ⟨number, _, held⟩ := sound.watched fd watched
    rw [unowned] at held
    cases held
  have closed : server.registry.kernel.close fd = { server.registry.kernel with
      opened := Function.update server.registry.kernel.opened fd false } := by
    unfold Kernel.close
    rw [← unwatched, Function.update_eq_self]
  rw [closed]
  apply sound.reopen
  intro other number own
  have differs : other ≠ fd := by
    rintro rfl
    rw [unowned] at own
    cases own
  rw [Function.update_of_ne differs]
  exact (sound.owned other number own).2

/-- Every step keeps what holds of a server, and ends a connection in one of two ways. -/
theorem serverStep_advanced (sound : Sound server) {event : ServerEvent}
    (success : serverStep server event = .ok next) : Sound next ∧ Advanced server event next := by
  cases event with
  | establish own role fd completed =>
    obtain ⟨kept, stays⟩ := establish_sound sound success
    exact ⟨kept, .of_stays stays nofun⟩
  | opens fd =>
    cases success
    obtain ⟨kept, stays⟩ := takeDescriptor_sound sound fd
    exact ⟨kept, .of_stays stays nofun⟩
  | closes fd =>
    cases held : server.owned fd with
    | some number =>
      have unchanged : serverStep server (.closes fd) = .ok server := by
        simp only [serverStep, held]
        rfl
      cases unchanged.symm.trans success
      exact ⟨sound, .of_stays (.refl _) nofun⟩
    | none =>
      have closed : serverStep server (.closes fd) = .ok { server with registry :=
          { server.registry with kernel := server.registry.kernel.close fd } } := by
        simp only [serverStep, held]
        rfl
      cases closed.symm.trans success
      obtain ⟨kept, stays⟩ := closes_sound sound held
      exact ⟨kept, .of_stays stays nofun⟩
  | arrive number bytes =>
    unfold serverStep at success
    by_cases beyond : server.registry.channels.length ≤ number
    · simp only [if_pos beyond] at success
      cases success
      exact ⟨sound, .of_stays (.refl _) nofun⟩
    · simp only [if_neg beyond] at success
      cases success
      have inside := Nat.not_le.mp beyond
      have known : server.registry.fdOf number ≠ none :=
        Registry.fdOf_ne_none.mpr ⟨_, List.getElem?_eq_getElem inside⟩
      obtain ⟨kept, stays⟩ := @arrive_sound _ _ sound bytes known
      exact ⟨kept, .of_stays stays nofun⟩
  | epollWait events =>
    unfold serverStep at success
    by_cases allowed : server.mayReport events = true
    · simp only [if_pos allowed] at success
      cases success
      refine ⟨sound.report allowed, .idle (fun _ _ _ dispatches => nomatch dispatches.event) ?_⟩
      exact fun _ => trace_kept rfl
    · simp only [if_neg allowed] at success
      cases success
      exact ⟨sound, .of_stays (.refl _) nofun⟩
  | dispatch answers =>
    unfold serverStep at success
    cases reported : server.reported with
    | nil =>
      simp only [reported] at success
      cases success
      refine ⟨sound, .idle ?_ fun _ => trace_kept rfl⟩
      intro head answers number dispatches
      have first := dispatches.first
      rw [reported] at first
      cases first
    | cons head events =>
      simp only [reported] at success
      cases failed : head.failed with
      | true =>
        simp only [dispatchEvent, failed, if_true] at success
        cases success
        exact hangUp_advanced sound answers reported failed
      | false => exact healthy_advanced sound reported failed success
  | handlePending =>
    obtain ⟨kept, stays⟩ := handlePendingChannel_sound sound.toSteady success
    exact ⟨kept, .of_stays stays nofun⟩

theorem start_sound (opened : Int → Bool) : Sound (start opened) := by
  have unknown (number : Nat) : (start opened).registry.fdOf number = none := rfl
  refine ⟨⟨⟨⟨?_, nofun, nofun⟩, ⟨nofun, ?_, ?_, fun _ _ => rfl, fun _ => .nil, ?_,
    fun _ => rfl⟩⟩, nofun, nofun, List.nodup_nil⟩, nofun⟩
  · exact fun fd registered => absurd rfl registered
  · intro fd number named
    rw [unknown] at named
    cases named
  · exact fun fd number registered => absurd rfl registered
  · intro number channel place
    cases place

/-- A connection whose event is dispatched has been accepted and has not ended. -/
theorem Dispatches.live (sound : Sound server) {event : ServerEvent} {head : EpollEvent}
    {answers : Answers} (dispatches : Dispatches server event head answers number) :
    .accept ∈ server.trace number ∧ .unwatched ∉ server.trace number ∧
      server.owned head.fd = some number := by
  have watched := sound.reports head (List.mem_of_mem_head? dispatches.first)
  obtain ⟨owner, found, held⟩ := sound.watched _ watched
  cases dispatches.mapped.symm.trans found
  obtain ⟨usable, named⟩ := sound.mapped _ _ found
  obtain ⟨channel, place, same⟩ := Registry.fdOf_eq_some.mp named
  have role := dispatches.role
  rw [place] at role
  exact ⟨(sound.roles number channel place).mpr ⟨role, by omega⟩,
    sound.attended _ _ watched found, held⟩

/-- A step leaves a connection as it is, unless the connection is still watched. -/
theorem mild_or_watched (sound : Sound server) {event : ServerEvent}
    (success : serverStep server event = .ok next) (accepted : .accept ∈ server.trace number) :
    Mildly server next number ∨ .unwatched ∉ server.trace number := by
  cases (serverStep_advanced sound success).2 with
  | mild calm trace =>
    rcases trace number with mild | ⟨refused, _⟩
    · exact .inl mild
    · exact absurd accepted refused
  | @hungUp other hangs calm own others =>
    by_cases here : number = other
    · obtain ⟨head, answers, dispatches, _⟩ := hangs
      exact .inr (here ▸ (dispatches.live sound).2.1)
    · exact .inl (others number here)
  | @closed other ends calm closed =>
    obtain ⟨fd, closed⟩ := closed
    by_cases here : number = other
    · obtain ⟨head, answers, dispatches, _⟩ := ends
      exact .inr (here ▸ (dispatches.live sound).2.1)
    · exact .inl (closed.others number here)

/-- What has been accepted was accepted first. -/
theorem Sound.accepted_before (sound : Sound next) {calls : List Call}
    (more : next.trace number = server.trace number ++ calls) (begun : server.trace number ≠ [])
    (accepted : .accept ∈ next.trace number) : .accept ∈ server.trace number := by
  rw [more] at accepted
  apply (List.mem_append.mp accepted).resolve_right
  intro late
  obtain ⟨before, after, shape⟩ := List.append_of_mem late
  rw [shape, ← List.append_assoc] at more
  have first : server.trace number ++ before = [] := (sound.orderly number).allowed_of more
  exact begun (List.append_eq_nil_iff.mp first).1

end Server

end Yolanda.App
