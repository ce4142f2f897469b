import Mathlib.Data.Set.Card
import Yolanda.Foundation.Run
import Yolanda.Lib.PollDispatcher

/-! The echo server of `pollserver.c` (chap-21), which keeps its connections in the array that
it gives to `poll`. -/

namespace Yolanda.Chapters

open Foundation
open Lib (Pollfd pollRdNorm)

/-- `POLLERR` -/
def pollErr : BitVec 16 := 0x008

/-- `POLLERR`, `POLLHUP` and `POLLNVAL`, which nobody has to ask for. -/
def pollUnasked : BitVec 16 := pollErr ||| 0x010 ||| 0x020

/-- `INIT_SIZE` -/
def initSize : Nat := 128

/-- What `read` gives for a buffer of `MAXLINE` characters. -/
inductive PollRead where
  | some (bytes : Bytes) (positive : bytes ≠ []) (fits : bytes.length ≤ 4096)
  | closed
  /-- `ECONNRESET` -/
  | reset
  | failed

/-- What the calls of one round of the loop answer: `poll` the events of each descriptor, and
`write` the number of characters it has taken. -/
structure PollAnswers where
  poll : Option (Nat → BitVec 16)
  accept : Option Nat
  read : Nat → PollRead
  write : Nat → Option Nat

/-- How the process ends. -/
inductive PollStop where
  | pollFailed
  | tooManyClients
  | readError
  | writeError
  deriving DecidableEq

/-- What was read from a connection and written to it. -/
structure Peer where
  received : Bytes
  echoed : Bytes
  deriving DecidableEq

/-- `event_set[0]`, the other slots of `event_set`, and the connections that are open. -/
structure PollServer where
  listener : Pollfd
  clients : List Pollfd
  peers : Nat → Option Peer

/-- A slot the loop has something to do for. -/
def polledReady (slot : Pollfd) : Bool :=
  slot.revents &&& (pollRdNorm ||| pollErr) ≠ 0

/-- What `poll` writes into a slot. -/
def pollSlot (report : Nat → BitVec 16) (slot : Pollfd) : Pollfd :=
  { slot with
    revents :=
      if slot.fd < 0 then 0 else report slot.fd.toNat &&& (slot.events ||| pollUnasked) }

/-- The `read` for a slot, with the `write` or the `close` behind it. -/
def serveSlot (answers : PollAnswers) (slot : Pollfd) (peers : Nat → Option Peer) :
    Except PollStop (Pollfd × (Nat → Option Peer)) :=
  let fd := slot.fd.toNat
  let closed := ({ slot with fd := -1 }, Function.update peers fd none)
  match answers.read fd with
  | .some bytes _ _ =>
    match answers.write fd with
    | none => .error .writeError
    | some count => .ok (slot, Function.update peers fd ((peers fd).map fun peer =>
        ⟨peer.received ++ bytes, peer.echoed ++ bytes.take count⟩))
  | .closed => .ok closed
  | .reset => .ok closed
  | .failed => .error .readError

/-- The loop over the slots, with `ready_number`. -/
def serveSlots (answers : PollAnswers) (readyNumber : Int) :
    List Pollfd → (Nat → Option Peer) → Except PollStop (List Pollfd × (Nat → Option Peer))
  | [], peers => .ok ([], peers)
  | slot :: slots, peers =>
    if slot.fd < 0 then do
      let (after, peers) ← serveSlots answers readyNumber slots peers
      .ok (slot :: after, peers)
    else if polledReady slot then do
      let (slot, peers) ← serveSlot answers slot peers
      if readyNumber - 1 ≤ 0 then .ok (slot :: slots, peers)
      else do
        let (after, peers) ← serveSlots answers (readyNumber - 1) slots peers
        .ok (slot :: after, peers)
    else do
      let (after, peers) ← serveSlots answers readyNumber slots peers
      .ok (slot :: after, peers)

/-- What `accept` returns. -/
def connectedFd : Option Nat → Int
  | some fd => fd
  | none => -1

def fillSlot (connectedFd : Int) (slot : Pollfd) : Pollfd :=
  { slot with
    fd := connectedFd
    events := pollRdNorm }

namespace PollServer

/-- The array on the memory it is in, with all slots but the first one free. -/
def start (listenFd : Nat) (memory : Fin initSize → Pollfd) : PollServer where
  listener := { memory ⟨0, by decide⟩ with
    fd := listenFd
    events := pollRdNorm }
  clients := (List.ofFn memory).tail.map fun slot => { slot with fd := -1 }
  peers _ := none

def poll (report : Nat → BitVec 16) (server : PollServer) : PollServer :=
  { server with
    listener := pollSlot report server.listener
    clients := server.clients.map (pollSlot report) }

/-- What `poll` returns. -/
def readyNumber (server : PollServer) : Int :=
  ((server.listener :: server.clients).countP fun slot => slot.revents ≠ 0 : Nat)

/-- `accept`, and the loop for a free slot. A failure of `accept` takes its -1 there. -/
def acceptConnection (accept : Option Nat) (server : PollServer) : Except PollStop PollServer :=
  if server.clients.any (·.fd < 0) then
    .ok { server with
      clients := modifyFirst (·.fd < 0) (fillSlot (connectedFd accept)) server.clients
      peers :=
        match accept with
        | some fd => Function.update server.peers fd (some ⟨[], []⟩)
        | none => server.peers }
  else .error .tooManyClients

def serveClients (answers : PollAnswers) (readyNumber : Int) (server : PollServer) :
    Except PollStop PollServer := do
  let (clients, peers) ← serveSlots answers readyNumber server.clients server.peers
  .ok { server with
    clients := clients
    peers := peers }

/-- One round of the loop of `main`. -/
def round (server : PollServer) (answers : PollAnswers) : Except PollStop PollServer :=
  match answers.poll with
  | none => .error .pollFailed
  | some report => do
    let polled := server.poll report
    if polled.listener.revents &&& pollRdNorm ≠ 0 then do
      let accepted ← polled.acceptConnection answers.accept
      if polled.readyNumber - 1 ≤ 0 then .ok accepted
      else accepted.serveClients answers (polled.readyNumber - 1)
    else polled.serveClients answers polled.readyNumber

/-- The descriptor that `accept` returns is not in use. -/
def Fresh (server : PollServer) (answers : PollAnswers) : Prop :=
  ∀ fd, answers.accept = some fd → server.peers fd = none

end PollServer

/-- `write` takes all that was read. -/
def PollAnswers.Whole (answers : PollAnswers) : Prop :=
  ∀ fd bytes positive fits count, answers.read fd = .some bytes positive fits →
    answers.write fd = some count → bytes.length ≤ count

/-- All slots are looked at. -/
def serveAll (answers : PollAnswers) :
    List Pollfd → (Nat → Option Peer) → Except PollStop (List Pollfd × (Nat → Option Peer))
  | [], peers => .ok ([], peers)
  | slot :: slots, peers => do
    let (slot, peers) ←
      if slot.fd < 0 ∨ ¬ polledReady slot then .ok (slot, peers) else serveSlot answers slot peers
    let (after, peers) ← serveAll answers slots peers
    .ok (slot :: after, peers)

/-- What is to become of a connection that has something to read: it gets back what is read,
or it is closed. -/
def Peer.served (answers : PollAnswers) (fd : Nat) (peer : Peer) : Except PollStop (Option Peer) :=
  match answers.read fd, answers.write fd with
  | .some bytes _ _, some count =>
    .ok (some ⟨peer.received ++ bytes, peer.echoed ++ bytes.take count⟩)
  | .some .., none => .error .writeError
  | .failed, _ => .error .readError
  | .closed, _ => .ok none
  | .reset, _ => .ok none

/-- A service of connections, of which a round serves those with something to read. -/
structure Echoed (answers : PollAnswers) (accepts : Bool) (reads : Nat → Bool)
    (peers later : Nat → Option Peer) : Prop where
  accepted : ∀ fd, accepts = true → answers.accept = some fd → later fd = some ⟨[], []⟩
  served : ∀ fd peer, peers fd = some peer → reads fd = true →
    peer.served answers fd = .ok (later fd)
  others : ∀ fd, (accepts = true → answers.accept ≠ some fd) →
    (peers fd ≠ none → reads fd = false) → later fd = peers fd

/-- All slots are taken. -/
def Full (peers : Nat → Option Peer) : Prop :=
  {fd | peers fd ≠ none}.ncard = initSize - 1

/-- What comes of a round, said of the connections and not of the array. -/
inductive Echoes (answers : PollAnswers) (listenFd : Nat) (peers : Nat → Option Peer) :
    Except PollStop (Nat → Option Peer) → Prop where
  | pollFailed : answers.poll = none → Echoes answers listenFd peers (.error .pollFailed)
  | tooManyClients (report : Nat → BitVec 16) : answers.poll = some report →
      report listenFd &&& pollRdNorm ≠ 0 → Full peers →
      Echoes answers listenFd peers (.error .tooManyClients)
  | failed (report : Nat → BitVec 16) (fd : Nat) (peer : Peer) (stop : PollStop) :
      answers.poll = some report → ¬ (report listenFd &&& pollRdNorm ≠ 0 ∧ Full peers) →
      peers fd = some peer → report fd &&& (pollRdNorm ||| pollErr) ≠ 0 →
      peer.served answers fd = .error stop →
      Echoes answers listenFd peers (.error stop)
  | echoed (report : Nat → BitVec 16) (later : Nat → Option Peer) :
      answers.poll = some report → ¬ (report listenFd &&& pollRdNorm ≠ 0 ∧ Full peers) →
      Echoed answers (report listenFd &&& pollRdNorm ≠ 0)
        (fun fd => report fd &&& (pollRdNorm ||| pollErr) ≠ 0) peers later →
      Echoes answers listenFd peers (.ok later)

variable {answers : PollAnswers} {slots : List Pollfd} {peers : Nat → Option Peer}

/-- A slot that is looked at for nothing. -/
theorem serveAll_idle {slot : Pollfd} (idle : slot.fd < 0 ∨ ¬ polledReady slot) :
    serveAll answers (slot :: slots) peers = (do
      let (after, peers) ← serveAll answers slots peers
      .ok (slot :: after, peers)) := by
  rw [serveAll, if_pos idle]
  rfl

theorem serveAll_ready {slot : Pollfd} (taken : ¬ slot.fd < 0) (ready : polledReady slot = true) :
    serveAll answers (slot :: slots) peers = (do
      let (slot, peers) ← serveSlot answers slot peers
      let (after, peers) ← serveAll answers slots peers
      .ok (slot :: after, peers)) := by
  rw [serveAll, if_neg (not_or.mpr ⟨taken, not_not.mpr ready⟩)]

theorem serveAll_silent (silent : ∀ slot ∈ slots, ¬ polledReady slot) :
    serveAll answers slots peers = .ok (slots, peers) := by
  induction slots with
  | nil => rfl
  | cons slot slots ih =>
    have rest := ih fun other member => silent other (List.mem_cons_of_mem _ member)
    rw [serveAll_idle (.inr (silent slot (List.mem_cons_self ..))), rest]
    rfl

/-- A slot that is served was reported. -/
theorem reported_of_ready {slot : Pollfd} (ready : polledReady slot = true) :
    decide (slot.revents ≠ 0) = true := by
  apply decide_eq_true
  intro zero
  rw [polledReady, zero] at ready
  simp at ready

/-- With no more slots reported than `ready_number` the loop looks at all that are ready. -/
theorem serveSlots_eq_serveAll {readyNumber : Int}
    (enough : (slots.countP fun slot => slot.revents ≠ 0 : Nat) ≤ readyNumber) :
    serveSlots answers readyNumber slots peers = serveAll answers slots peers := by
  induction slots generalizing readyNumber peers with
  | nil => rfl
  | cons slot slots ih =>
    rw [List.countP_cons] at enough
    rw [serveSlots]
    split
    case isTrue free => rw [serveAll_idle (.inl free), ih (by omega)]
    case isFalse taken =>
      split
      case isTrue ready =>
        rw [if_pos (reported_of_ready ready)] at enough
        rw [serveAll_ready taken ready]
        cases served : serveSlot answers slot peers with
        | error stop => rfl
        | ok result =>
          obtain ⟨changed, later⟩ := result
          simp only [bind, Except.bind]
          split
          case isTrue last =>
            have none : slots.countP (fun slot => slot.revents ≠ 0) = 0 := by omega
            rw [serveAll_silent]
            intro other member ready
            exact List.countP_eq_zero.mp none other member (reported_of_ready ready)
          case isFalse more => rw [ih (by omega)]
      case isFalse unready => rw [serveAll_idle (.inr unready), ih (by omega)]

/-- The events the slots are to ask for. -/
def asked (peers : Nat → Option Peer) (fd : Nat) : Option (BitVec 16) :=
  (peers fd).map fun _ => pollRdNorm

theorem asked_update (fd : Nat) (after : Option Peer) :
    asked (Function.update peers fd after) =
      Function.update (asked peers) fd (after.map fun _ => pollRdNorm) := by
  funext other
  by_cases same : other = fd
  · rw [same, asked, Function.update_self, Function.update_self]
  · rw [asked, Function.update_of_ne same, Function.update_of_ne same, asked]

variable {before after : List Pollfd} {slot : Pollfd} {fd : Nat} {peer : Peer}
variable {later : Nat → Option Peer} {stop : PollStop}

/-- A slot with a descriptor stands for an open connection that it asks the input of. -/
theorem exists_peer (tabled : Tabulates Pollfd.key Pollfd.events slots (asked peers))
    (member : slot ∈ slots) (held : slot.key = some fd) :
    ∃ peer, peers fd = some peer ∧ slot.events = pollRdNorm := by
  have found := (tabled.reads fd slot.events).mpr ⟨slot, member, held, rfl⟩
  obtain ⟨peer, opened, same⟩ := Option.map_eq_some_iff.mp found
  exact ⟨peer, opened, same.symm⟩

theorem taken_of_key (held : slot.key = some fd) : ¬ slot.fd < 0 ∧ slot.fd.toNat = fd := by
  have number := (slot.key_iff fd).mp held
  omega

theorem serveSlot_eq (answers : PollAnswers) (held : slot.key = some fd)
    (opened : peers fd = some peer) :
    serveSlot answers slot peers = (peer.served answers fd).map fun after =>
      (if after.isSome then slot else { slot with fd := -1 }, Function.update peers fd after) := by
  rw [serveSlot, Peer.served, (taken_of_key held).2]
  cases answers.read fd with
  | some bytes positive fits =>
    cases answers.write fd with
    | none => rfl
    | some count => simp [Except.map, opened]
  | closed => rfl
  | reset => rfl
  | failed => rfl

/-- The slot of a connection that is closed becomes free. -/
theorem tabulates_served (tabled : Tabulates Pollfd.key Pollfd.events (before ++ slot :: slots)
      (asked peers)) (held : slot.key = some fd) (result : Option Peer) :
    Tabulates Pollfd.key Pollfd.events
      (before ++ (if result.isSome then slot else { slot with fd := -1 }) :: slots)
      (asked (Function.update peers fd result)) := by
  obtain ⟨_, _, events⟩ := exists_peer tabled (List.mem_append_right _ (List.mem_cons_self ..)) held
  have same (found : Nat) (has : slot.key = some found) : found = fd :=
    Option.some.inj (has.symm.trans held)
  rw [asked_update]
  cases result with
  | none =>
    exact tabled.replace { slot with fd := -1 } (tabled.alone held) same nofun
  | some peer =>
    have kept := tabled.replace slot (tabled.alone held) same same
    rwa [held, Option.map_some, events] at kept

/-- What the loop leaves: the connections with a ready slot are served, the others stay. -/
theorem serveAll_ok (tabled : Tabulates Pollfd.key Pollfd.events (before ++ slots) (asked peers))
    (success : serveAll answers slots peers = .ok (after, later)) :
    Tabulates Pollfd.key Pollfd.events (before ++ after) (asked later) ∧
      after.length = slots.length ∧
      (∀ slot ∈ slots, ∀ fd, slot.key = some fd → polledReady slot = true →
        ∃ peer, peers fd = some peer ∧ peer.served answers fd = .ok (later fd)) ∧
      ∀ fd, (∀ slot ∈ slots, slot.key = some fd → ¬ polledReady slot = true) →
        later fd = peers fd := by
  induction slots generalizing before peers after with
  | nil =>
    cases success
    exact ⟨tabled, rfl, nofun, fun _ _ => rfl⟩
  | cons slot slots ih =>
    by_cases busy : ¬ slot.fd < 0 ∧ polledReady slot = true
    · obtain ⟨taken, ready⟩ := busy
      have held : slot.key = some slot.fd.toNat := if_neg taken
      obtain ⟨peer, opened, _⟩ :=
        exists_peer tabled (List.mem_append_right _ (List.mem_cons_self ..)) held
      rw [serveAll_ready taken ready, serveSlot_eq answers held opened] at success
      cases served : peer.served answers slot.fd.toNat with
      | error stop =>
        rw [served] at success
        cases success
      | ok result =>
        simp only [served, Except.map, bind, Except.bind] at success
        split at success
        case h_1 => cases success
        case h_2 rest finished =>
          cases success
          have next := tabulates_served tabled held result
          rw [List.append_cons] at next
          obtain ⟨kept, length, all, others⟩ := ih next finished
          have unnamed : ∀ other ∈ slots, other.key ≠ some slot.fd.toNat := fun other member =>
            tabled.alone held other (List.mem_append_right _ member)
          refine ⟨by rwa [List.append_cons], congrArg (· + 1) length, ?_, ?_⟩
          · intro other member fd has active
            rcases List.mem_cons.mp member with rfl | behind
            · cases held.symm.trans has
              refine ⟨peer, opened, ?_⟩
              rw [others _ fun other member has => absurd has (unnamed other member),
                Function.update_self, served]
            · have differ : fd ≠ slot.fd.toNat := by
                rintro rfl
                exact unnamed other behind has
              have later := all other behind fd has active
              rwa [Function.update_of_ne differ] at later
          · intro fd idle
            have differ : fd ≠ slot.fd.toNat := by
              rintro rfl
              exact idle slot (List.mem_cons_self ..) held ready
            rw [others fd fun other member => idle other (List.mem_cons_of_mem _ member),
              Function.update_of_ne differ]
    · have idle : slot.fd < 0 ∨ ¬ polledReady slot := by
        by_cases free : slot.fd < 0
        · exact .inl free
        · exact .inr fun ready => busy ⟨free, ready⟩
      rw [serveAll_idle idle] at success
      simp only [bind, Except.bind] at success
      split at success
      case h_1 => cases success
      case h_2 rest finished =>
        cases success
        rw [List.append_cons] at tabled
        obtain ⟨kept, length, all, others⟩ := ih tabled finished
        refine ⟨by rwa [List.append_cons], congrArg (· + 1) length, ?_, ?_⟩
        · intro other member fd has active
          rcases List.mem_cons.mp member with rfl | behind
          · exact absurd ⟨(taken_of_key has).1, active⟩ busy
          · exact all other behind fd has active
        · intro fd unready
          exact others fd fun other member => unready other (List.mem_cons_of_mem _ member)

/-- A loop that does not come to its end stops at a connection that cannot be served. -/
theorem serveAll_error (tabled : Tabulates Pollfd.key Pollfd.events (before ++ slots) (asked peers))
    (failure : serveAll answers slots peers = .error stop) :
    ∃ slot ∈ slots, ∃ fd peer, slot.key = some fd ∧ polledReady slot = true ∧
      peers fd = some peer ∧ peer.served answers fd = .error stop := by
  induction slots generalizing before peers with
  | nil => cases failure
  | cons slot slots ih =>
    by_cases busy : ¬ slot.fd < 0 ∧ polledReady slot = true
    · obtain ⟨taken, ready⟩ := busy
      have held : slot.key = some slot.fd.toNat := if_neg taken
      obtain ⟨peer, opened, _⟩ :=
        exists_peer tabled (List.mem_append_right _ (List.mem_cons_self ..)) held
      rw [serveAll_ready taken ready, serveSlot_eq answers held opened] at failure
      cases served : peer.served answers slot.fd.toNat with
      | error first =>
        rw [served] at failure
        cases failure
        exact ⟨slot, List.mem_cons_self .., _, peer, held, ready, opened, served⟩
      | ok result =>
        simp only [served, Except.map, bind, Except.bind] at failure
        split at failure
        case h_2 => cases failure
        case h_1 first failed =>
          cases failure
          have next := tabulates_served tabled held result
          rw [List.append_cons] at next
          obtain ⟨other, member, fd, peer, has, active, open', stops⟩ := ih next failed
          have differ : fd ≠ slot.fd.toNat := by
            rintro rfl
            exact tabled.alone held other (List.mem_append_right _ member) has
          rw [Function.update_of_ne differ] at open'
          exact ⟨other, List.mem_cons_of_mem _ member, fd, peer, has, active, open', stops⟩
    · have idle : slot.fd < 0 ∨ ¬ polledReady slot := by
        by_cases free : slot.fd < 0
        · exact .inl free
        · exact .inr fun ready => busy ⟨free, ready⟩
      rw [serveAll_idle idle] at failure
      simp only [bind, Except.bind] at failure
      split at failure
      case h_2 => cases failure
      case h_1 first failed =>
        cases failure
        rw [List.append_cons] at tabled
        obtain ⟨other, member, rest⟩ := ih tabled failed
        exact ⟨other, List.mem_cons_of_mem _ member, rest⟩

theorem full_iff (tabled : Tabulates Pollfd.key Pollfd.events slots (asked peers))
    (size : slots.length + 1 = initSize) : Full peers ↔ ¬ ∃ slot ∈ slots, slot.key = none := by
  have domain (fd : Nat) : fd ∈ slots.filterMap Pollfd.key ↔ asked peers fd ≠ none := by
    constructor
    · intro member
      obtain ⟨slot, inside, held⟩ := List.mem_filterMap.mp member
      exact tabled.ne_none inside held
    · intro defined
      exact List.mem_filterMap.mpr (tabled.exists_slot defined)
  have opened : {fd | peers fd ≠ none} = ((slots.filterMap Pollfd.key).toFinset : Set Nat) := by
    ext fd
    rw [Finset.mem_coe, List.mem_toFinset, domain fd, asked, ne_eq, Option.map_eq_none_iff]
    rfl
  have most := List.length_filterMap_le Pollfd.key slots
  rw [tabled.room_iff tabled.single domain, Full, opened, Set.ncard_coe_finset,
    List.toFinset_card_of_nodup tabled.single]
  omega

namespace PollServer

variable {server next : PollServer} {report : Nat → BitVec 16} {listenFd : Nat}

/-- The array holds the open connections, each once, and asks for the input of them and of
the listening socket. -/
structure Serving (listenFd : Nat) (server : PollServer) : Prop where
  size : server.clients.length + 1 = initSize
  listener : server.listener.fd = listenFd
  heard : server.listener.events = pollRdNorm
  tabled : Tabulates Pollfd.key Pollfd.events server.clients (asked server.peers)

theorem start_serving (listenFd : Nat) (memory : Fin initSize → Pollfd) :
    (start listenFd memory).Serving listenFd := by
  refine ⟨?_, rfl, rfl, Tabulates.empty ?_⟩
  · rw [start, List.length_map, List.length_tail, List.length_ofFn]
    rfl
  · intro slot member
    obtain ⟨_, _, rfl⟩ := List.mem_map.mp member
    rfl

theorem poll_serving (report : Nat → BitVec 16) (serving : server.Serving listenFd) :
    (server.poll report).Serving listenFd where
  size := by
    rw [poll, List.length_map]
    exact serving.size
  listener := serving.listener
  heard := serving.heard
  tabled := serving.tabled.map fun _ => ⟨rfl, rfl⟩

theorem listener_reported (report : Nat → BitVec 16) (serving : server.Serving listenFd) :
    (server.poll report).listener.revents &&& pollRdNorm = report listenFd &&& pollRdNorm := by
  have positive : ¬ server.listener.fd < 0 := by
    rw [serving.listener]
    omega
  rw [poll, pollSlot, if_neg positive, serving.listener, serving.heard, Int.toNat_natCast,
    BitVec.and_assoc]
  rfl

/-- An open connection is ready when its input or an error of it was reported. -/
theorem poll_ready (serving : server.Serving listenFd) {slot : Pollfd}
    (member : slot ∈ (server.poll report).clients) {fd : Nat} (held : slot.key = some fd) :
    polledReady slot = true ↔ report fd &&& (pollRdNorm ||| pollErr) ≠ 0 := by
  obtain ⟨old, inside, rfl⟩ := List.mem_map.mp member
  obtain ⟨_, _, events⟩ := exists_peer serving.tabled inside held
  obtain ⟨taken, number⟩ : ¬ old.fd < 0 ∧ old.fd.toNat = fd := taken_of_key held
  rw [polledReady, decide_eq_true_iff, pollSlot]
  simp only [if_neg taken, number, events, BitVec.and_assoc]
  rfl

/-- The array behind `poll` and `accept`, with the connections there were before. -/
structure Polled (answers : PollAnswers) (report : Nat → BitVec 16) (accepts : Bool)
    (peers : Nat → Option Peer) (server : PollServer) : Prop where
  tabled : Tabulates Pollfd.key Pollfd.events server.clients (asked server.peers)
  ready : ∀ slot ∈ server.clients, ∀ fd, slot.key = some fd →
    (polledReady slot = true ↔ peers fd ≠ none ∧ report fd &&& (pollRdNorm ||| pollErr) ≠ 0)
  accepted : ∀ fd, accepts = true → answers.accept = some fd →
    peers fd = none ∧ server.peers fd = some ⟨[], []⟩
  others : ∀ fd, (accepts = true → answers.accept ≠ some fd) → server.peers fd = peers fd

theorem poll_polled (answers : PollAnswers) (serving : server.Serving listenFd) :
    Polled answers report false server.peers (server.poll report) where
  tabled := (poll_serving report serving).tabled
  ready slot member fd held := by
    obtain ⟨peer, opened, _⟩ := exists_peer (poll_serving report serving).tabled member held
    have defined : server.peers fd ≠ none := by
      rw [show server.peers fd = some peer from opened]
      exact nofun
    rw [poll_ready serving member held, and_iff_right defined]
  accepted _ := nofun
  others _ _ := rfl

theorem any_free_iff (slots : List Pollfd) :
    slots.any (·.fd < 0) = true ↔ ∃ slot ∈ slots, slot.key = none := by
  simp only [List.any_eq_true, Lib.PollSet.free_iff]

theorem acceptConnection_error {accept : Option Nat} (serving : server.Serving listenFd)
    (failure : server.acceptConnection accept = .error stop) :
    stop = .tooManyClients ∧ Full server.peers := by
  rw [full_iff serving.tabled serving.size, ← any_free_iff]
  by_cases room : server.clients.any (·.fd < 0) = true
  · simp only [acceptConnection, if_pos room] at failure
    cases failure
  · simp only [acceptConnection, if_neg room] at failure
    cases failure
    exact ⟨rfl, room⟩

/-- The slot of an accepted connection was free when `poll` looked at it, so that it is not
ready in the same round. -/
theorem acceptConnection_ok (serving : server.Serving listenFd)
    (fresh : server.Fresh answers)
    (success : (server.poll report).acceptConnection answers.accept = .ok next) :
    Polled answers report true server.peers next ∧ ¬ Full server.peers ∧
      next.listener = (server.poll report).listener ∧
      next.clients.map Pollfd.revents = (server.poll report).clients.map Pollfd.revents := by
  have polled := poll_serving report serving
  have before : Polled answers report false server.peers (server.poll report) :=
    poll_polled answers serving
  have room : (server.poll report).clients.any (·.fd < 0) = true := by
    by_contra full
    simp only [acceptConnection, if_neg full] at success
    cases success
  have free := (any_free_iff _).mp room
  simp only [acceptConnection, if_pos room, Except.ok.injEq] at success
  subst success
  have unfilled : ¬ Full server.peers := fun full =>
    (full_iff polled.tabled polled.size).mp full free
  have quiet (slot : Pollfd) (member : slot ∈ (server.poll report).clients)
      (unused : decide (slot.fd < 0) = true) : slot.revents = 0 := by
    obtain ⟨old, _, rfl⟩ := List.mem_map.mp member
    have unused : old.fd < 0 := of_decide_eq_true unused
    rw [pollSlot, if_pos unused]
  have seen (slot : Pollfd) (member : slot ∈
      modifyFirst (·.fd < 0) (fillSlot (connectedFd answers.accept)) (server.poll report).clients) :
      slot ∈ (server.poll report).clients ∨
        slot.fd = connectedFd answers.accept ∧ ¬ polledReady slot = true := by
    obtain ⟨index, place⟩ := List.mem_iff_getElem?.mp member
    rcases getElem?_modifyFirst_cases place with same | ⟨old, held, unused, rfl, _⟩
    · exact .inl (List.mem_iff_getElem?.mpr ⟨index, same⟩)
    · have zero := quiet old (List.mem_iff_getElem?.mpr ⟨index, held⟩) unused
      refine .inr ⟨rfl, ?_⟩
      rw [polledReady, fillSlot, zero]
      decide
  have revents (old : Pollfd) :
      (fillSlot (connectedFd answers.accept) old).revents = old.revents := rfl
  refine ⟨?_, unfilled, rfl, map_modifyFirst revents _⟩
  cases accepts : answers.accept with
  | some fd =>
    rw [accepts] at seen
    have unopened := fresh fd accepts
    have unasked : asked server.peers fd = none := by rw [asked, unopened, Option.map_none]
    constructor
    · rw [asked_update]
      exact polled.tabled.fill Lib.PollSet.free_iff unasked
        (fun slot => ⟨(Lib.Pollfd.key_iff _ fd).mpr rfl, rfl⟩) free
    · intro slot member found held
      rcases seen slot member with old | ⟨same, unready⟩
      · exact before.ready slot old found held
      · have same : (fd : Int) = found := same.symm.trans ((slot.key_iff found).mp held)
        cases Int.ofNat_inj.mp same
        exact iff_of_false unready fun opened => opened.1 unopened
    · intro found _ same
      cases accepts.symm.trans same
      exact ⟨unopened, Function.update_self ..⟩
    · intro found other
      have differ : found ≠ fd := by
        rintro rfl
        exact other rfl accepts
      exact Function.update_of_ne differ _ _
  | none =>
    rw [accepts] at seen
    constructor
    · exact polled.tabled.refill Lib.PollSet.free_iff fun _ => rfl
    · intro slot member found held
      rcases seen slot member with old | ⟨negative, _⟩
      · exact before.ready slot old found held
      · have positive : -1 = (found : Int) := negative.symm.trans ((slot.key_iff found).mp held)
        omega
    · intro found _ same
      cases accepts.symm.trans same
    · exact fun _ _ => rfl

/-- The loop over the slots, where `continue` comes before it when nothing else is reported. -/
theorem serveClients_eq {readyNumber : Int} (server : PollServer)
    (enough : (server.clients.countP fun slot => slot.revents ≠ 0 : Nat) ≤ readyNumber) :
    (if readyNumber ≤ 0 then .ok server else server.serveClients answers readyNumber) =
      server.serveClients answers readyNumber := by
  split
  case isTrue none =>
    have silent : ∀ slot ∈ server.clients, ¬ polledReady slot := by
      intro slot member ready
      have zero : server.clients.countP (fun slot => slot.revents ≠ 0) = 0 := by omega
      exact List.countP_eq_zero.mp zero slot member (reported_of_ready ready)
    rw [serveClients, serveSlots_eq_serveAll enough, serveAll_silent silent]
    rfl
  case isFalse => rfl

/-- What the loop over the slots makes of the array behind `poll` and `accept`. -/
theorem Polled.serves {accepts : Bool} {old : Nat → Option Peer} {readyNumber : Int}
    (polled : Polled answers report accepts old server)
    (enough : (server.clients.countP fun slot => slot.revents ≠ 0 : Nat) ≤ readyNumber)
    (success : server.serveClients answers readyNumber = .ok next) :
    Tabulates Pollfd.key Pollfd.events next.clients (asked next.peers) ∧
      next.clients.length = server.clients.length ∧ next.listener = server.listener ∧
      Echoed answers accepts (fun fd => report fd &&& (pollRdNorm ||| pollErr) ≠ 0) old
        next.peers := by
  rw [serveClients, serveSlots_eq_serveAll enough] at success
  cases finished : serveAll answers server.clients server.peers with
  | error stop =>
    rw [finished] at success
    cases success
  | ok result =>
    rw [finished] at success
    cases success
    have tabled : Tabulates Pollfd.key Pollfd.events ([] ++ server.clients) (asked server.peers) :=
      polled.tabled
    obtain ⟨kept, length, served, others⟩ := serveAll_ok tabled finished
    refine ⟨kept, length, rfl, ?_⟩
    constructor
    · intro fd accepts accepted
      obtain ⟨unopened, opened⟩ := polled.accepted fd accepts accepted
      rw [← opened]
      refine others fd fun slot member held ready => ?_
      exact ((polled.ready slot member fd held).mp ready).1 unopened
    · intro fd peer opened reads
      have defined : old fd ≠ none := by
        rw [opened]
        exact nofun
      have same : server.peers fd = old fd := polled.others fd fun accepts accepted =>
        defined (polled.accepted fd accepts accepted).1
      have found : asked server.peers fd ≠ none := by
        rw [asked, same, opened]
        exact nofun
      obtain ⟨slot, member, held⟩ := polled.tabled.exists_slot found
      have ready := (polled.ready slot member fd held).mpr ⟨defined, of_decide_eq_true reads⟩
      obtain ⟨again, there, becomes⟩ := served slot member fd held ready
      cases (same.symm.trans there).symm.trans opened
      exact becomes
    · intro fd other quiet
      rw [← polled.others fd other]
      refine others fd fun slot member held ready => ?_
      obtain ⟨defined, reads⟩ := (polled.ready slot member fd held).mp ready
      have unread := quiet defined
      exact of_decide_eq_false unread reads

theorem Polled.stops {accepts : Bool} {old : Nat → Option Peer} {readyNumber : Int}
    (polled : Polled answers report accepts old server)
    (enough : (server.clients.countP fun slot => slot.revents ≠ 0 : Nat) ≤ readyNumber)
    (failure : server.serveClients answers readyNumber = .error stop) :
    ∃ fd peer, old fd = some peer ∧ report fd &&& (pollRdNorm ||| pollErr) ≠ 0 ∧
      peer.served answers fd = .error stop := by
  rw [serveClients, serveSlots_eq_serveAll enough] at failure
  cases finished : serveAll answers server.clients server.peers with
  | ok result =>
    rw [finished] at failure
    cases failure
  | error first =>
    rw [finished] at failure
    cases failure
    have tabled : Tabulates Pollfd.key Pollfd.events ([] ++ server.clients) (asked server.peers) :=
      polled.tabled
    obtain ⟨slot, member, fd, peer, held, ready, opened, stops⟩ := serveAll_error tabled finished
    obtain ⟨defined, reads⟩ := (polled.ready slot member fd held).mp ready
    refine ⟨fd, peer, ?_, reads, stops⟩
    rw [← opened]
    exact (polled.others fd fun accepts accepted =>
      defined (polled.accepted fd accepts accepted).1).symm

/-- The two ways from `poll` to the loop over the slots. -/
theorem round_cases (serving : server.Serving listenFd) (fresh : server.Fresh answers)
    (polls : answers.poll = some report) :
    (report listenFd &&& pollRdNorm ≠ 0 ∧ Full server.peers ∧
      server.round answers = .error .tooManyClients) ∨
    ∃ polled, ∃ readyNumber : Int, ¬ (report listenFd &&& pollRdNorm ≠ 0 ∧ Full server.peers) ∧
      Polled answers report (report listenFd &&& pollRdNorm ≠ 0) server.peers polled ∧
      polled.listener = (server.poll report).listener ∧
      polled.clients.length = server.clients.length ∧
      (polled.clients.countP fun slot => slot.revents ≠ 0 : Nat) ≤ readyNumber ∧
      server.round answers = polled.serveClients answers readyNumber := by
  have heard := listener_reported report serving
  have countP_eq (slots : List Pollfd) : slots.countP (fun slot => slot.revents ≠ 0) =
      (slots.map Pollfd.revents).countP (fun revents => revents ≠ 0) := by
    rw [List.countP_map]
    rfl
  rw [round]
  simp only [polls, heard]
  by_cases listens : report listenFd &&& pollRdNorm ≠ 0
  · rw [if_pos listens]
    cases accepted : (server.poll report).acceptConnection answers.accept with
    | error stop =>
      obtain ⟨rfl, full⟩ := acceptConnection_error (poll_serving report serving) accepted
      exact .inl ⟨listens, full, rfl⟩
    | ok next =>
      obtain ⟨polled, unfilled, listener, revents⟩ := acceptConnection_ok serving fresh accepted
      have listed := congrArg List.length revents
      have counted : (server.poll report).readyNumber - 1 =
          (next.clients.countP fun slot => slot.revents ≠ 0 : Nat) := by
        have counts : decide ((server.poll report).listener.revents ≠ 0) = true := by
          apply decide_eq_true
          intro zero
          rw [zero] at heard
          exact listens (by rw [← heard]; rfl)
        rw [PollServer.readyNumber, List.countP_cons, if_pos counts, countP_eq next.clients,
          revents, ← countP_eq]
        omega
      refine .inr ⟨next, _, fun full => unfilled full.2, by rwa [decide_eq_true listens], listener,
        ?_, Int.le_of_eq counted.symm, ?_⟩
      · rw [List.length_map, List.length_map, poll, List.length_map] at listed
        exact listed
      · exact serveClients_eq next (Int.le_of_eq counted.symm)
  · rw [if_neg listens]
    refine .inr ⟨server.poll report, _, fun full => listens full.1,
      by rw [decide_eq_false listens]; exact poll_polled answers serving, rfl,
      List.length_map .., ?_, rfl⟩
    rw [PollServer.readyNumber, List.countP_cons]
    omega

theorem round_echoes (serving : server.Serving listenFd) (fresh : server.Fresh answers) :
    Echoes answers listenFd server.peers ((server.round answers).map PollServer.peers) := by
  cases polls : answers.poll with
  | none =>
    rw [round, polls]
    exact .pollFailed polls
  | some report =>
    rcases round_cases serving fresh polls with
      ⟨listens, full, taken⟩ | ⟨polled, readyNumber, room, array, _, _, enough, taken⟩
    · rw [taken]
      exact .tooManyClients report polls listens full
    · rw [taken]
      cases finished : polled.serveClients answers readyNumber with
      | error stop =>
        obtain ⟨fd, peer, opened, reads, stops⟩ := array.stops enough finished
        exact .failed report fd peer stop polls room opened reads stops
      | ok next =>
        obtain ⟨_, _, _, echoed⟩ := array.serves enough finished
        exact .echoed report next.peers polls room echoed

theorem round_serving (serving : server.Serving listenFd) (fresh : server.Fresh answers)
    (success : server.round answers = .ok next) : next.Serving listenFd := by
  cases polls : answers.poll with
  | none =>
    rw [round, polls] at success
    cases success
  | some report =>
    rcases round_cases serving fresh polls with
      ⟨_, _, taken⟩ | ⟨polled, readyNumber, _, array, listener, length, enough, taken⟩
    · cases taken.symm.trans success
    · obtain ⟨tabled, kept, same, _⟩ := array.serves enough (taken.symm.trans success)
      have first := poll_serving report serving
      constructor
      · rw [kept, length, serving.size]
      · rw [same, listener, first.listener]
      · rw [same, listener, first.heard]
      · exact tabled

/-- A connection behind a round is a new one, or was there, and was left alone or served. -/
theorem echoes_origin (echoes : Echoes answers listenFd peers (.ok later))
    (opened : later fd = some peer) :
    peer = ⟨[], []⟩ ∨ ∃ old, peers fd = some old ∧
      (peer = old ∨ old.served answers fd = .ok (some peer)) := by
  cases echoes with
  | echoed report _ _ _ echoed =>
    by_cases fresh : decide (report listenFd &&& pollRdNorm ≠ 0) = true ∧ answers.accept = some fd
    · rw [echoed.accepted fd fresh.1 fresh.2] at opened
      exact .inl (Option.some.inj opened).symm
    · have other := echoed.others fd fun accepts accepted => fresh ⟨accepts, accepted⟩
      cases before : peers fd with
      | none =>
        rw [other fun defined => absurd before defined, before] at opened
        cases opened
      | some old =>
        refine .inr ⟨old, rfl, ?_⟩
        cases reads : decide (report fd &&& (pollRdNorm ||| pollErr) ≠ 0) with
        | false =>
          rw [other fun _ => reads, before] at opened
          exact .inl (Option.some.inj opened).symm
        | true =>
          rw [← opened]
          exact .inr (echoed.served fd old before reads)

/-- A connection has back what it sent, in its order, and all of it when no `write` is cut
short. -/
def InOrder (whole : Prop) (peer : Peer) : Prop :=
  peer.echoed.Sublist peer.received ∧ (whole → peer.echoed = peer.received)

theorem served_inOrder {whole : Prop} {old : Peer} (all : whole → answers.Whole)
    (before : InOrder whole old) (served : old.served answers fd = .ok (some peer)) :
    InOrder whole peer := by
  unfold Peer.served at served
  split at served
  case h_1 bytes positive fits count reads writes =>
    cases served
    refine ⟨before.1.append (List.take_sublist count bytes), ?_⟩
    intro uncut
    have taken := all uncut fd bytes positive fits count reads writes
    rw [before.2 uncut, List.take_of_length_le taken]
  all_goals cases served

/-- What every round keeps. -/
structure Sound (listenFd : Nat) (whole : Prop) (server : PollServer) : Prop where
  serving : server.Serving listenFd
  inOrder : ∀ fd peer, server.peers fd = some peer → InOrder whole peer

theorem round_sound {whole : Prop} (sound : server.Sound listenFd whole)
    (fresh : server.Fresh answers) (all : whole → answers.Whole)
    (success : server.round answers = .ok next) : next.Sound listenFd whole := by
  refine ⟨round_serving sound.serving fresh success, ?_⟩
  intro fd peer opened
  have echoes := round_echoes sound.serving fresh
  rw [success] at echoes
  rcases echoes_origin echoes opened with rfl | ⟨old, before, rfl | served⟩
  · exact ⟨List.Sublist.refl _, fun _ => rfl⟩
  · exact sound.inOrder fd peer before
  · exact served_inOrder all (sound.inOrder fd old before) served

/-- In every run the array holds the open connections, each once. Every connection has back
what it sent, in its order and with nothing of another one, and all of it as long as no `write`
is cut short. A round serves all connections that were reported, or ends the process for one of
the causes in `Echoes`. -/
theorem connections_echoed (listenFd : Nat) (memory : Fin initSize → Pollfd)
    (rounds : List PollAnswers) (allowed : Along round Fresh (start listenFd memory) rounds)
    (reached : run round (start listenFd memory) rounds = .ok server) :
    Tabulates Pollfd.key Pollfd.events server.clients (asked server.peers) ∧
      (∀ fd peer, server.peers fd = some peer →
        InOrder (∀ answers ∈ rounds, answers.Whole) peer) ∧
      ∀ answers, server.Fresh answers →
        Echoes answers listenFd server.peers ((server.round answers).map PollServer.peers) := by
  have each : Along round (fun _ answers => (∀ answers ∈ rounds, answers.Whole) → answers.Whole)
      (start listenFd memory) rounds :=
    Along.of_forall (fun _ answers member all => all answers member) _
  have sound : server.Sound listenFd (∀ answers ∈ rounds, answers.Whole) := by
    refine run_invariant (Sound listenFd _) ?_ ⟨start_serving listenFd memory, nofun⟩
      (allowed.and each) reached
    intro server answers next sound condition success
    exact round_sound sound condition.1 condition.2 success
  exact ⟨sound.serving.tabled, sound.inOrder, fun answers => round_echoes sound.serving⟩

/-- A client connects and sends two characters. -/
theorem connections_echoed_sample :
    let free : Fin initSize → Pollfd := fun _ => ⟨0, 0, 0⟩
    let connect : PollAnswers := ⟨some fun fd => if fd = 3 then pollRdNorm else 0, some 4,
      fun _ => .closed, fun _ => none⟩
    let send : PollAnswers := ⟨some fun fd => if fd = 4 then pollRdNorm else 0, none,
      fun _ => .some [104, 105] (by decide) (by decide), fun _ => some 2⟩
    ∃ server, run round (start 3 free) [connect, send] = .ok server ∧
      server.peers 4 = some ⟨[104, 105], [104, 105]⟩ ∧
      Tabulates Pollfd.key Pollfd.events server.clients (asked server.peers) := by
  intro free connect send
  have echoed : (match run round (start 3 free) [connect, send] with
      | .ok server => decide (server.peers 4 = some ⟨[104, 105], [104, 105]⟩)
      | .error _ => false) = true := by decide +kernel
  split at echoed
  case h_2 => cases echoed
  rename_i server result
  refine ⟨server, result, of_decide_eq_true echoed, ?_⟩
  refine (connections_echoed 3 free [connect, send] ⟨?_, ?_⟩ result).1
  · exact fun _ _ => rfl
  · intro next _
    exact ⟨nofun, fun _ _ => trivial⟩

end PollServer

end Yolanda.Chapters
