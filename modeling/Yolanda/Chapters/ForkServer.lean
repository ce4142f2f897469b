import Yolanda.Chapters.LineEcho
import Yolanda.Foundation.Run

/-! The server with a process for each connection (chap-25): `main`, its children, and the
handler of `SIGCHLD`. -/

namespace Yolanda.Chapters

open Foundation

/-- A process that `fork` has made. It stays, as a zombie, until `waitpid` has returned it. -/
structure Child where
  pid : Nat
  /-- The connection its `fd` refers to. -/
  connection : Nat
  listening : Bool
  ended : Bool
  echo : LineEcho
  deriving DecidableEq

/-- Where the server process stands in the loop of `main`. -/
inductive ServerPlace where
  | accepting
  | forking (connection : Nat)
  | closing (connection : Nat)
  deriving DecidableEq

/-- `main`, interrupted by `sigchld_handler` where it is handling. Connections have numbers in
the order in which they are accepted. -/
structure ForkServer where
  place : ServerPlace
  pending : Bool
  handling : Bool
  children : List Child
  accepted : Nat
  forked : List Nat
  reaped : List Nat
  deriving DecidableEq

inductive ForkEvent where
  | accept
  | acceptFails
  | fork (pid : Nat)
  | forkFails
  | close
  /-- A child comes to `close(listener_fd)`. -/
  | closeListener (pid : Nat)
  | recv (pid : Nat) (ch : Byte)
  /-- `recv` returns 0 or -1 to a child, and it comes to its `exit`. -/
  | exit (pid : Nat)
  /-- The kernel calls the handler. -/
  | deliver
  /-- `waitpid` returns a process. -/
  | wait (pid : Nat)
  /-- `waitpid` returns 0 or -1, and the handler returns. -/
  | waitNone

/-- `accept failed`, where the process ends. -/
inductive ForkStop where
  | acceptFailed
  deriving DecidableEq

namespace Child

/-- The child is in `child_run`. -/
def echoing (child : Child) : Bool := !child.listening && !child.ended

def closeListener (child : Child) : Child :=
  if child.ended then child else { child with listening := false }

def recv (ch : Byte) (child : Child) : Child :=
  if child.echoing then { child with echo := child.echo.childRun ch } else child

def exit (child : Child) : Child :=
  if child.echoing then { child with ended := true } else child

end Child

namespace ForkServer

def start : ForkServer :=
  { place := .accepting, pending := false, handling := false, children := [], accepted := 0
    forked := [], reaped := [] }

/-- A step of `main`, which does not go on while the handler runs. -/
def unhandled (server : ForkServer) (next : ForkServer) : ForkServer :=
  if server.handling then server else next

def modifyChild (server : ForkServer) (pid : Nat) (step : Child → Child) : ForkServer :=
  { server with
    children := server.children.map fun child => if child.pid = pid then step child else child }

end ForkServer

/-- A step that cannot be taken changes nothing. -/
def forkStep (server : ForkServer) : ForkEvent → Except ForkStop ForkServer
  | .accept =>
    match server.place with
    | .accepting => .ok (server.unhandled { server with
        place := .forking server.accepted
        accepted := server.accepted + 1 })
    | _ => .ok server
  | .acceptFails =>
    match server.place with
    | .accepting => if server.handling then .ok server else .error .acceptFailed
    | _ => .ok server
  | .fork pid =>
    match server.place with
    | .forking connection =>
      -- a zombie keeps its number
      if pid ∈ server.children.map Child.pid then .ok server
      else .ok (server.unhandled { server with
        place := .closing connection
        children := server.children ++
          [{ pid, connection, listening := true, ended := false, echo := .start }]
        forked := server.forked ++ [pid] })
    | _ => .ok server
  | .forkFails =>
    match server.place with
    | .forking connection => .ok (server.unhandled { server with place := .closing connection })
    | _ => .ok server
  | .close =>
    match server.place with
    | .closing _ => .ok (server.unhandled { server with place := .accepting })
    | _ => .ok server
  | .closeListener pid => .ok (server.modifyChild pid Child.closeListener)
  | .recv pid ch => .ok (server.modifyChild pid (Child.recv ch))
  | .exit pid =>
    -- the end of a child raises SIGCHLD, once however many end before it is delivered
    if server.children.any fun child => child.pid = pid && child.echoing then
      .ok { server.modifyChild pid Child.exit with pending := true }
    else .ok server
  | .deliver =>
    if server.pending ∧ server.handling = false then
      .ok { server with
        pending := false
        handling := true }
    else .ok server
  | .wait pid =>
    match server.children.find? fun child => child.pid = pid && child.ended with
    | some child =>
      if server.handling then .ok { server with
        children := server.children.erase child
        reaped := server.reaped ++ [pid] }
      else .ok server
    | none => .ok server
  | .waitNone =>
    if server.handling ∧ server.children.all (fun child => !child.ended) then
      .ok { server with handling := false }
    else .ok server

namespace ForkServer

/-- How many processes hold a connection open. -/
def holders (server : ForkServer) (connection : Nat) : Nat :=
  (if server.place = .forking connection ∨ server.place = .closing connection then 1 else 0) +
    server.children.countP fun child => child.connection = connection && !child.ended

/-- A zombie is known to the kernel or to the handler, every process is where it was made or
reaped, and every connection has one child, which has answered what came in. -/
structure Tended (server : ForkServer) : Prop where
  zombies : ∀ child ∈ server.children, child.ended = true →
    server.pending = true ∨ server.handling = true
  pids : (server.children.map Child.pid).Nodup
  connections : (server.children.map Child.connection).Nodup
  known : ∀ child ∈ server.children, child.connection < server.accepted
  fresh : ∀ connection, server.place = .forking connection →
    connection < server.accepted ∧ ∀ child ∈ server.children, child.connection ≠ connection
  counted : server.forked.Perm (server.reaped ++ server.children.map Child.pid)
  answered : ∀ child ∈ server.children, ∃ lines rest, child.echo.Answers 4097 lines rest

variable {server next : ForkServer}

theorem start_tended : start.Tended := by
  refine ⟨?_, List.nodup_nil, List.nodup_nil, ?_, ?_, List.Perm.refl _, ?_⟩
  · exact fun _ member => (nomatch member)
  · exact fun _ member => (nomatch member)
  · exact fun _ same => (nomatch same)
  · exact fun _ member => (nomatch member)

/-- A step of a child, which keeps its number and its connection. -/
structure Steady (step : Child → Child) : Prop where
  pid : ∀ child, (step child).pid = child.pid
  connection : ∀ child, (step child).connection = child.connection
  answered : ∀ child, (∃ lines rest, child.echo.Answers 4097 lines rest) →
    ∃ lines rest, (step child).echo.Answers 4097 lines rest

theorem closeListener_steady : Steady Child.closeListener := by
  constructor
  · intro child
    unfold Child.closeListener
    split <;> rfl
  · intro child
    unfold Child.closeListener
    split <;> rfl
  · intro child answered
    unfold Child.closeListener
    split <;> exact answered

theorem recv_steady (ch : Byte) : Steady (Child.recv ch) := by
  constructor
  · intro child
    unfold Child.recv
    split <;> rfl
  · intro child
    unfold Child.recv
    split <;> rfl
  · intro child answered
    unfold Child.recv
    split
    · obtain ⟨lines, rest, answers⟩ := answered
      exact ⟨_, _, answers.takeChar ch⟩
    · exact answered

theorem exit_steady : Steady Child.exit := by
  constructor
  · intro child
    unfold Child.exit
    split <;> rfl
  · intro child
    unfold Child.exit
    split <;> rfl
  · intro child answered
    unfold Child.exit
    split <;> exact answered

theorem mem_modifyChild {pid : Nat} {step : Child → Child} {after : Child}
    (member : after ∈ (server.modifyChild pid step).children) :
    ∃ child ∈ server.children, after = child ∨ after = step child := by
  obtain ⟨child, old, same⟩ := List.mem_map.mp member
  refine ⟨child, old, ?_⟩
  split at same
  · exact .inr same.symm
  · exact .inl same.symm

/-- What does not change when a child takes a step. -/
theorem modifyChild_map {α : Type} {field : Child → α} {step : Child → Child}
    (keeps : ∀ child, field (step child) = field child) (server : ForkServer) (pid : Nat) :
    (server.modifyChild pid step).children.map field = server.children.map field := by
  refine List.map_map.trans (List.map_congr_left fun child _ => ?_)
  change field (if child.pid = pid then step child else child) = field child
  split
  · exact keeps child
  · rfl

theorem Tended.modifyChild (tended : server.Tended) {step : Child → Child} (steady : Steady step)
    (pid : Nat) {pending : Bool}
    (zombies : ∀ child ∈ (server.modifyChild pid step).children, child.ended = true →
      pending = true ∨ server.handling = true) :
    Tended { server.modifyChild pid step with pending } := by
  refine ⟨zombies, ?_, ?_, ?_, ?_, ?_, ?_⟩
  · rw [modifyChild_map steady.pid]
    exact tended.pids
  · rw [modifyChild_map steady.connection]
    exact tended.connections
  · intro after member
    obtain ⟨child, old, same⟩ := mem_modifyChild member
    have known := tended.known child old
    rcases same with rfl | rfl
    · exact known
    · rw [steady.connection]
      exact known
  · intro connection forking
    obtain ⟨taken, others⟩ := tended.fresh connection forking
    refine ⟨taken, fun after member => ?_⟩
    obtain ⟨child, old, same⟩ := mem_modifyChild member
    have apart := others child old
    rcases same with rfl | rfl
    · exact apart
    · rw [steady.connection]
      exact apart
  · rw [modifyChild_map steady.pid]
    exact tended.counted
  · intro after member
    obtain ⟨child, old, same⟩ := mem_modifyChild member
    have answered := tended.answered child old
    rcases same with rfl | rfl
    · exact answered
    · exact steady.answered child answered

/-- `main` goes on, where the handler does not run. -/
theorem Tended.unhandled (tended : server.Tended) (going : next.Tended) :
    (server.unhandled next).Tended := by
  unfold ForkServer.unhandled
  split
  · exact tended
  · exact going

/-- A new process has a number that no other has, and the connection that was accepted last. -/
theorem Tended.fork (tended : server.Tended) {pid connection : Nat}
    (forking : server.place = .forking connection)
    (unused : pid ∉ server.children.map Child.pid) :
    Tended { server with
      place := .closing connection
      children := server.children ++
        [{ pid, connection, listening := true, ended := false, echo := .start }]
      forked := server.forked ++ [pid] } := by
  obtain ⟨taken, others⟩ := tended.fresh connection forking
  refine ⟨?_, ?_, ?_, ?_, ?_, ?_, ?_⟩
  · intro child member ended
    rcases List.mem_append.mp member with old | new
    · exact tended.zombies child old ended
    · rw [List.mem_singleton.mp new] at ended
      cases ended
  · simp only [List.map_append, List.map_cons, List.map_nil]
    exact List.nodup_append.mpr ⟨tended.pids, List.nodup_singleton pid, fun other old new last same =>
      unused (List.mem_singleton.mp last ▸ same ▸ old)⟩
  · simp only [List.map_append, List.map_cons, List.map_nil]
    refine List.nodup_append.mpr ⟨tended.connections, List.nodup_singleton connection, ?_⟩
    intro other old new last same
    obtain ⟨child, member, own⟩ := List.mem_map.mp old
    exact others child member (own.trans (same.trans (List.mem_singleton.mp last)))
  · intro child member
    rcases List.mem_append.mp member with old | new
    · exact tended.known child old
    · rw [List.mem_singleton.mp new]
      exact taken
  · exact fun _ same => (nomatch same)
  · simp only [List.map_append, List.map_cons, List.map_nil]
    rw [← List.append_assoc]
    exact tended.counted.append_right [pid]
  · intro child member
    rcases List.mem_append.mp member with old | new
    · exact tended.answered child old
    · rw [List.mem_singleton.mp new]
      exact ⟨[], [], LineEcho.start_answers 4097⟩

/-- A zombie that is reaped was there, and is counted. -/
theorem Tended.wait (tended : server.Tended) {pid : Nat} {child : Child}
    (member : child ∈ server.children) (same : child.pid = pid)
    (handling : server.handling = true) :
    Tended { server with
      children := server.children.erase child
      reaped := server.reaped ++ [pid] } := by
  have split := (List.perm_cons_erase member).map Child.pid
  have kept : (server.children.erase child).Sublist server.children := List.erase_sublist
  refine ⟨?_, ?_, ?_, ?_, ?_, ?_, ?_⟩
  · exact fun _ _ _ => .inr handling
  · exact (kept.map Child.pid).nodup tended.pids
  · exact (kept.map Child.connection).nodup tended.connections
  · exact fun other left => tended.known other (kept.subset left)
  · intro connection forking
    obtain ⟨taken, others⟩ := tended.fresh connection forking
    exact ⟨taken, fun other left => others other (kept.subset left)⟩
  · refine tended.counted.trans ?_
    change (server.reaped ++ _).Perm (server.reaped ++ [pid] ++ _)
    rw [List.append_assoc]
    refine List.Perm.append_left server.reaped ?_
    rw [← same]
    exact split
  · exact fun other left => tended.answered other (kept.subset left)

theorem Tended.step {event : ForkEvent} (tended : server.Tended)
    (taken : forkStep server event = .ok next) : next.Tended := by
  cases event with
  | accept =>
    simp only [forkStep] at taken
    split at taken
    · cases taken
      refine tended.unhandled ⟨tended.zombies, tended.pids, tended.connections, ?_, ?_,
        tended.counted, tended.answered⟩
      · exact fun child member => Nat.lt_succ_of_lt (tended.known child member)
      · intro connection forking
        cases forking
        exact ⟨Nat.lt_succ_self _, fun child member => Nat.ne_of_lt (tended.known child member)⟩
    · cases taken
      exact tended
  | acceptFails =>
    simp only [forkStep] at taken
    split at taken
    · split at taken
      · cases taken
        exact tended
      · cases taken
    · cases taken
      exact tended
  | fork pid =>
    simp only [forkStep] at taken
    split at taken
    · split at taken
      · cases taken
        exact tended
      · cases taken
        exact tended.unhandled (tended.fork ‹_› ‹_›)
    · cases taken
      exact tended
  | forkFails =>
    simp only [forkStep] at taken
    split at taken
    · cases taken
      exact tended.unhandled ⟨tended.zombies, tended.pids, tended.connections, tended.known,
        fun _ same => (nomatch same), tended.counted, tended.answered⟩
    · cases taken
      exact tended
  | close =>
    simp only [forkStep] at taken
    split at taken
    · cases taken
      exact tended.unhandled ⟨tended.zombies, tended.pids, tended.connections, tended.known,
        fun _ same => (nomatch same), tended.counted, tended.answered⟩
    · cases taken
      exact tended
  | closeListener pid =>
    cases taken
    refine tended.modifyChild closeListener_steady pid ?_
    intro after member ended
    obtain ⟨child, old, same⟩ := mem_modifyChild member
    rcases same with rfl | rfl
    · exact tended.zombies _ old ended
    · refine tended.zombies child old ?_
      unfold Child.closeListener at ended
      split at ended
      · exact ended
      · exact ended
  | recv pid ch =>
    cases taken
    refine tended.modifyChild (recv_steady ch) pid ?_
    intro after member ended
    obtain ⟨child, old, same⟩ := mem_modifyChild member
    rcases same with rfl | rfl
    · exact tended.zombies _ old ended
    · refine tended.zombies child old ?_
      unfold Child.recv at ended
      split at ended
      · exact ended
      · exact ended
  | exit pid =>
    simp only [forkStep] at taken
    split at taken
    · cases taken
      exact tended.modifyChild exit_steady pid fun _ _ _ => .inl rfl
    · cases taken
      exact tended
  | deliver =>
    simp only [forkStep] at taken
    split at taken
    · cases taken
      exact ⟨fun _ _ _ => .inr rfl, tended.pids, tended.connections, tended.known, tended.fresh,
        tended.counted, tended.answered⟩
    · cases taken
      exact tended
  | wait pid =>
    simp only [forkStep] at taken
    split at taken
    · split at taken
      · cases taken
        have found := ‹List.find? _ server.children = some _›
        have what := List.find?_some found
        rw [Bool.and_eq_true, decide_eq_true_eq] at what
        exact tended.wait (List.mem_of_find?_eq_some found) what.1 ‹_›
      · cases taken
        exact tended
    · cases taken
      exact tended
  | waitNone =>
    simp only [forkStep] at taken
    split at taken
    · cases taken
      have none := ‹server.handling = true ∧ _›.2
      rw [List.all_eq_true] at none
      refine ⟨?_, tended.pids, tended.connections, tended.known, tended.fresh, tended.counted,
        tended.answered⟩
      intro child member ended
      have alive := none child member
      rw [ended] at alive
      cases alive
    · cases taken
      exact tended

theorem run_tended {events : List ForkEvent} (success : run forkStep start events = .ok server) :
    server.Tended :=
  run_keeps ForkServer.Tended (fun _ _ _ tended taken => tended.step taken) start_tended success

/-- What the kernel and the handler do, and nobody else. -/
def Reaps : ForkEvent → Prop
  | .deliver | .wait _ | .waitNone => True
  | _ => False

/-- The processes that are not zombies. -/
def running (server : ForkServer) : List Child := server.children.filter fun child => !child.ended

theorem filter_erase {α : Type} [DecidableEq α] {keeps : α → Bool} {item : α} {items : List α}
    (lost : keeps item = false) : (items.erase item).filter keeps = items.filter keeps := by
  induction items with
  | nil => rfl
  | cons head items ih =>
    by_cases same : head = item
    · subst same
      rw [List.erase_cons_head, List.filter_cons_of_neg (by simp [lost])]
    · rw [List.erase_cons_tail (by simpa using same), List.filter_cons, List.filter_cons, ih]

/-- The loop of the handler reaps all zombies and ends. -/
theorem handler_reaps (handling : server.handling = true) : ∃ events final,
    (∀ event ∈ events, Reaps event) ∧ run forkStep server events = .ok final ∧
      final.children = server.running ∧ final.handling = false ∧
      final.pending = server.pending := by
  induction zombies : server.children.countP Child.ended generalizing server with
  | zero =>
    have none := List.countP_eq_zero.mp zombies
    have all : server.children.all (fun child => !child.ended) = true := by
      rw [List.all_eq_true]
      intro child member
      simpa using none child member
    refine ⟨[.waitNone], { server with handling := false }, by simp [Reaps], ?_, ?_, rfl, rfl⟩
    · simp only [run, forkStep, if_pos (And.intro handling all)]
    · exact (List.filter_eq_self.mpr (List.all_eq_true.mp all)).symm
  | succ others ih =>
    have some : 0 < server.children.countP Child.ended := by omega
    obtain ⟨zombie, member, ended⟩ := List.countP_pos_iff.mp some
    have there : (server.children.find?
        fun child => child.pid = zombie.pid && child.ended).isSome = true := by
      rw [List.find?_isSome]
      exact ⟨zombie, member, by simp [ended]⟩
    obtain ⟨child, found⟩ := Option.isSome_iff_exists.mp there
    have what := List.find?_some found
    rw [Bool.and_eq_true] at what
    have step : forkStep server (.wait zombie.pid) = .ok { server with
        children := server.children.erase child
        reaped := server.reaped ++ [zombie.pid] } := by
      simp only [forkStep, found, handling, if_true]
    have less : (server.children.erase child).countP Child.ended = others := by
      have split := (List.perm_cons_erase (List.mem_of_find?_eq_some found)).countP_eq Child.ended
      rw [List.countP_cons_of_pos what.2, zombies] at split
      omega
    obtain ⟨events, final, reaps, success, left, still, pending⟩ := @ih { server with
      children := server.children.erase child
      reaped := server.reaped ++ [zombie.pid] } handling less
    refine ⟨.wait zombie.pid :: events, final, List.forall_mem_cons.mpr ⟨trivial, reaps⟩,
      (run_cons step events).trans success, ?_, still, pending⟩
    rw [left]
    exact filter_erase (by simp [what.2])

/-- No zombie is left when no `SIGCHLD` is pending and the handler has returned, every process
that was made is there or has been reaped once, and at any moment the kernel and the handler
alone come to a state without zombies. -/
theorem zombies_reaped {events : List ForkEvent}
    (success : run forkStep start events = .ok server) :
    (server.pending = false → server.handling = false →
      ∀ child ∈ server.children, child.ended = false) ∧
    server.forked.Perm (server.reaped ++ server.children.map Child.pid) ∧
    ∃ more final, (∀ event ∈ more, Reaps event) ∧ run forkStep server more = .ok final ∧
      final.children = server.running ∧ final.handling = false ∧ final.pending = false := by
  have tended := run_tended success
  have quiet (pending : server.pending = false) (handling : server.handling = false) :
      ∀ child ∈ server.children, child.ended = false := by
    intro child member
    by_contra ended
    rcases tended.zombies child member (Bool.not_eq_false _ ▸ ended) with raised | inside
    · rw [pending] at raised
      cases raised
    · rw [handling] at inside
      cases inside
  refine ⟨quiet, tended.counted, ?_⟩
  cases handling : server.handling with
  | true =>
    obtain ⟨events, middle, reaps, success, left, returned, pending⟩ := handler_reaps handling
    cases raised : server.pending with
    | false => exact ⟨events, middle, reaps, success, left, returned, pending.trans raised⟩
    | true =>
      -- another child has ended meanwhile, and the handler runs once more
      have delivered : forkStep middle .deliver = .ok { middle with
          pending := false
          handling := true } := by
        simp only [forkStep, pending, raised, returned, true_and, if_true]
      obtain ⟨more, final, again, reached, rest, ended, kept⟩ := @handler_reaps { middle with
        pending := false
        handling := true } rfl
      refine ⟨events ++ .deliver :: more, final, ?_, ?_, ?_, ended, kept⟩
      · exact List.forall_mem_append.mpr ⟨reaps, List.forall_mem_cons.mpr ⟨trivial, again⟩⟩
      · exact run_append.mpr ⟨middle, success, (run_cons delivered more).trans reached⟩
      · rw [rest]
        change middle.children.filter _ = _
        rw [left, running, List.filter_filter]
        simp only [Bool.and_self]
  | false =>
    cases raised : server.pending with
    | false =>
      refine ⟨[], server, fun _ member => (nomatch member), rfl, ?_, handling, raised⟩
      refine (List.filter_eq_self.mpr fun child member => ?_).symm
      rw [quiet raised handling child member]
      rfl
    | true =>
      have delivered : forkStep server .deliver = .ok { server with
          pending := false
          handling := true } := by
        simp only [forkStep, raised, handling, true_and, if_true]
      obtain ⟨more, final, again, reached, rest, ended, kept⟩ := @handler_reaps { server with
        pending := false
        handling := true } rfl
      exact ⟨.deliver :: more, final, List.forall_mem_cons.mpr ⟨trivial, again⟩,
        (run_cons delivered more).trans reached, rest, ended, kept⟩

/-- Two children that end before the handler is called, which reaps one of them. -/
def twoEnds : List ForkEvent :=
  [.accept, .fork 10, .close, .accept, .fork 11, .close, .closeListener 10, .closeListener 11,
    .recv 11 72, .recv 11 105, .recv 11 10, .exit 10, .exit 11, .deliver, .wait 11]

theorem zombies_reaped_sample : ∃ server, run forkStep start twoEnds = .ok server ∧
    server.reaped = [11] ∧
    ∃ more final, (∀ event ∈ more, Reaps event) ∧ run forkStep server more = .ok final ∧
      final.children = server.running ∧ final.handling = false ∧ final.pending = false := by
  have ends : (run forkStep start twoEnds).map ForkServer.reaped = .ok [11] := by decide +kernel
  cases success : run forkStep start twoEnds with
  | error stop =>
    rw [success] at ends
    cases ends
  | ok server =>
    rw [success] at ends
    exact ⟨server, rfl, Except.ok.inj ends, (zombies_reaped success).2.2⟩

/-- Each connection has one child. -/
theorem Tended.alone (tended : server.Tended) {first second : Child}
    (one : first ∈ server.children) (other : second ∈ server.children)
    (same : first.connection = second.connection) : first = second :=
  List.inj_on_of_nodup_map tended.connections one other same

end ForkServer

end Yolanda.Chapters
