import Yolanda.Foundation.Block
import Yolanda.Foundation.Run
import Yolanda.Lib.FrameStream

/-! The heartbeat of chap-12. The client sends a `MSG_PING` when it has not heard from the server
for a while, the server sleeps and answers each, and the client gives up after three that were not
answered. Both run on one clock, in microseconds. -/

namespace Yolanda.Chapters

open Foundation
open Lib (htonl ntohl ntohl_htonl)

/-- The proofs never need the number itself. -/
@[irreducible] def second : Nat := 1000000

/-- `struct timeval` -/
structure Timeval where
  sec : Nat
  usec : Nat
  deriving DecidableEq

namespace Timeval

def micros (tv : Timeval) : Nat := tv.sec * second + tv.usec

def ofMicros (micros : Nat) : Timeval := ⟨micros / second, micros % second⟩

end Timeval

/-- `KEEP_ALIVE_TIME`, in seconds as the others. -/
def keepAliveTime : Nat := 10

/-- `KEEP_ALIVE_INTERVAL` -/
def keepAliveInterval : Nat := 3

/-- `KEEP_ALIVE_PROBETIMES` -/
def keepAliveProbetimes : Nat := 3

/-- `sizeof(messageObject)` -/
def sizeofMessage : Nat := 1028

/-- The argument of the server, and what lies in the memory that neither program sets: the data of
the messages they send, and the `message` of the server before its first `read`. -/
structure HeartbeatSetup where
  sleepingTime : Nat
  pingData : Bytes
  pongData : Bytes
  memory : Bytes
  ping_length : pingData.length = 1024
  pong_length : pongData.length = 1024
  memory_length : memory.length = sizeofMessage

namespace HeartbeatSetup

/-- The message of the client: `htonl(MSG_PING)` and its data. -/
def ping (setup : HeartbeatSetup) : Bytes := htonl 1 ++ setup.pingData

/-- The message of the server: `MSG_PONG`, in the order of the host, and its data. -/
def pong (setup : HeartbeatSetup) : Bytes := [2, 0, 0, 0] ++ setup.pongData

end HeartbeatSetup

/-- Both programs, with what is on its way between them and, for the client, when it last heard
from the server and when it has sent a message since. -/
structure Heartbeat where
  clock : Nat
  tv : Timeval
  heartbeats : Nat
  /-- The terminal has input, which the client selects and never reads. -/
  typed : Bool
  /-- The network delivers nothing any more. -/
  lost : Bool
  toServer : Bytes
  toClient : Bytes
  message : Bytes
  /-- When the `sleep` of the server ends. -/
  wake : Option Nat
  count : Nat
  lastData : Nat
  pings : List Nat
  deriving DecidableEq

inductive HeartbeatEvent where
  | elapse (micros : Nat)
  | type
  | lose
  /-- `select` returns 0. -/
  | timeout
  /-- `select` returns, and `read` delivers so many bytes. -/
  | read (count : Nat)
  | serverRead
  | serverWake
  deriving DecidableEq

/-- How a program ends. -/
inductive HeartbeatStop where
  | connectionDead
  | unknownMessage (type : Nat)
  deriving DecidableEq

namespace Heartbeat

def start (setup : HeartbeatSetup) : Heartbeat :=
  { clock := 0, tv := ⟨keepAliveTime, 0⟩, heartbeats := 0, typed := false, lost := false
    toServer := [], toClient := [], message := setup.memory, wake := none, count := 0
    lastData := 0, pings := [] }

/-- Nothing has to happen within this time. -/
def mayWait (state : Heartbeat) (micros : Nat) : Bool :=
  state.toClient.isEmpty && (state.typed || decide (micros ≤ state.tv.micros)) &&
    match state.wake with
    | some wake => decide (state.clock + micros ≤ wake)
    | none => state.toServer.isEmpty

/-- Time passes in `select`, which leaves in `tv` what is left of it. With input on the terminal
`select` returns at once, again and again, and `tv` stays. -/
def elapse (state : Heartbeat) (micros : Nat) : Heartbeat :=
  { state with
    clock := state.clock + micros
    tv := if state.typed then state.tv else .ofMicros (state.tv.micros - micros) }

/-- The client for `rc == 0`. -/
def timeout (setup : HeartbeatSetup) (state : Heartbeat) : Except HeartbeatStop Heartbeat :=
  if state.heartbeats + 1 > keepAliveProbetimes then .error .connectionDead
  else .ok { state with
    heartbeats := state.heartbeats + 1
    toServer := if state.lost then state.toServer else state.toServer ++ setup.ping
    tv := { state.tv with sec := keepAliveInterval }
    pings := state.pings ++ [state.clock] }

/-- The client for a readable socket. -/
def readReply (state : Heartbeat) (count : Nat) : Heartbeat :=
  { state with
    toClient := state.toClient.drop count
    heartbeats := 0
    tv := { state.tv with sec := keepAliveTime }
    lastData := state.clock
    pings := [] }

/-- `read` and `switch` of the server. -/
def serverRead (setup : HeartbeatSetup) (state : Heartbeat) : Except HeartbeatStop Heartbeat :=
  let message := overwrite state.message 0 (state.toServer.take sizeofMessage)
  let state := { state with
    toServer := state.toServer.drop sizeofMessage
    message
    count := state.count + 1 }
  match ntohl (message.take 4) with
  | 11 | 21 => .ok state
  | 1 => .ok { state with wake := some (state.clock + setup.sleepingTime * second) }
  | type => .error (.unknownMessage type)

/-- The server behind its `sleep`. -/
def serverWake (setup : HeartbeatSetup) (state : Heartbeat) : Heartbeat :=
  { state with
    wake := none
    toClient := if state.lost then state.toClient else state.toClient ++ setup.pong }

end Heartbeat

/-- A step that cannot be taken changes nothing. What is there to read, or is due, comes before
time goes on; between two that are due at once either comes first. -/
def heartbeatStep (setup : HeartbeatSetup) (state : Heartbeat) :
    HeartbeatEvent → Except HeartbeatStop Heartbeat
  | .elapse micros => if state.mayWait micros then .ok (state.elapse micros) else .ok state
  | .type => .ok { state with typed := true }
  | .lose => .ok { state with lost := true }
  | .timeout =>
    if state.toClient = [] ∧ state.typed = false ∧ state.tv.micros = 0 then state.timeout setup
    else .ok state
  | .read count =>
    if 0 < count ∧ count ≤ 4096 ∧ count ≤ state.toClient.length then .ok (state.readReply count)
    else .ok state
  | .serverRead =>
    if state.wake = none ∧ state.toServer ≠ [] then state.serverRead setup else .ok state
  | .serverWake =>
    if state.wake = some state.clock then .ok (state.serverWake setup) else .ok state

/-- What a step that returns has done. -/
inductive HeartbeatMoves (setup : HeartbeatSetup) (state : Heartbeat) :
    HeartbeatEvent → Heartbeat → Prop
  | stays {event : HeartbeatEvent} : HeartbeatMoves setup state event state
  | elapse {micros : Nat} (waits : state.mayWait micros = true) :
      HeartbeatMoves setup state (.elapse micros) (state.elapse micros)
  | type : HeartbeatMoves setup state .type { state with typed := true }
  | lose : HeartbeatMoves setup state .lose { state with lost := true }
  | timeout {next : Heartbeat} (quiet : state.toClient = []) (untyped : state.typed = false)
      (spent : state.tv.micros = 0) (success : state.timeout setup = .ok next) :
      HeartbeatMoves setup state .timeout next
  | read (count : Nat) : HeartbeatMoves setup state (.read count) (state.readReply count)
  | serverRead {next : Heartbeat} (awake : state.wake = none) (pending : state.toServer ≠ [])
      (success : state.serverRead setup = .ok next) : HeartbeatMoves setup state .serverRead next
  | serverWake (due : state.wake = some state.clock) :
      HeartbeatMoves setup state .serverWake (state.serverWake setup)

theorem heartbeatStep_moves {setup : HeartbeatSetup} {state next : Heartbeat}
    {event : HeartbeatEvent} (success : heartbeatStep setup state event = .ok next) :
    HeartbeatMoves setup state event next := by
  cases event with
  | elapse micros =>
    simp only [heartbeatStep] at success
    split at success
    · cases success
      exact .elapse ‹_›
    · cases success
      exact .stays
  | type =>
    cases success
    exact .type
  | lose =>
    cases success
    exact .lose
  | timeout =>
    simp only [heartbeatStep] at success
    split at success
    · rename_i due
      exact .timeout due.1 due.2.1 due.2.2 success
    · cases success
      exact .stays
  | read count =>
    simp only [heartbeatStep] at success
    split at success
    · cases success
      exact .read count
    · cases success
      exact .stays
  | serverRead =>
    simp only [heartbeatStep] at success
    split at success
    · rename_i due
      exact .serverRead due.1 due.2 success
    · cases success
      exact .stays
  | serverWake =>
    simp only [heartbeatStep] at success
    split at success
    · cases success
      exact .serverWake ‹_›
    · cases success
      exact .stays

theorem second_pos : 0 < second := by
  unfold second
  decide

namespace Timeval

@[simp] theorem micros_ofMicros (micros : Nat) : (ofMicros micros).micros = micros := by
  have split := Nat.div_add_mod micros second
  simp only [Timeval.micros, ofMicros]
  rw [Nat.mul_comm]
  exact split

theorem usec_ofMicros (micros : Nat) : (ofMicros micros).usec < second :=
  Nat.mod_lt _ second_pos

theorem ofMicros_zero : ofMicros 0 = ⟨0, 0⟩ := by
  rw [ofMicros, Nat.zero_div, Nat.zero_mod]

end Timeval

/-- When the next `select` of the client times out, counted from the last data of the server. -/
def dueAt (lastData slack heartbeats : Nat) : Nat :=
  lastData + (keepAliveTime + keepAliveInterval * heartbeats) * second + slack

namespace Heartbeat

/-- How the client measures the silence of the server. What is left of a second in `tv` when
data comes is added to the next ten. -/
structure Timed (state : Heartbeat) (slack : Nat) : Prop where
  part : state.tv.usec < second
  below : slack < second
  few : state.heartbeats ≤ keepAliveProbetimes
  sent : state.pings = (List.range state.heartbeats).map (dueAt state.lastData slack)
  left : state.typed = false → state.clock + state.tv.micros = dueAt state.lastData slack state.heartbeats

end Heartbeat

variable {setup : HeartbeatSetup} {state next : Heartbeat} {event : HeartbeatEvent} {slack : Nat}

section Silence

theorem Heartbeat.Timed.elapse (timed : state.Timed slack) {micros : Nat}
    (waits : state.mayWait micros = true) : (state.elapse micros).Timed slack := by
  obtain ⟨usec, bound, few, sent, left⟩ := timed
  simp only [mayWait, Bool.and_eq_true, Bool.or_eq_true, decide_eq_true_eq] at waits
  obtain ⟨⟨_, within⟩, _⟩ := waits
  refine ⟨?_, bound, few, sent, ?_⟩
  · change (if state.typed then state.tv else Timeval.ofMicros _).usec < second
    split
    · exact usec
    · exact Timeval.usec_ofMicros _
  · intro untyped
    have quiet : state.typed = false := untyped
    have before := left quiet
    rw [quiet] at within
    have enough : micros ≤ state.tv.micros := by simpa using within
    have shape : (state.elapse micros).tv = .ofMicros (state.tv.micros - micros) := by
      simp only [Heartbeat.elapse, quiet, Bool.false_eq_true, ↓reduceIte]
    rw [shape, Timeval.micros_ofMicros]
    change state.clock + micros + _ = dueAt state.lastData slack state.heartbeats
    omega

/-- A timeout comes when it is due. -/
theorem Heartbeat.Timed.due (timed : state.Timed slack) (untyped : state.typed = false)
    (spent : state.tv.micros = 0) : state.clock = dueAt state.lastData slack state.heartbeats := by
  have left := timed.left untyped
  omega

theorem Heartbeat.Timed.timeout (timed : state.Timed slack) (untyped : state.typed = false)
    (spent : state.tv.micros = 0) (success : state.timeout setup = .ok next) :
    next.Timed slack := by
  have due := timed.due untyped spent
  unfold Heartbeat.timeout at success
  split at success
  · cases success
  · rename_i fewer
    cases success
    refine ⟨timed.part, timed.below, Nat.le_of_not_lt fewer, ?_, ?_⟩
    · change state.pings ++ [state.clock] = (List.range (state.heartbeats + 1)).map _
      rw [List.range_succ, List.map_append, ← timed.sent, due]
      rfl
    · intro _
      have part : state.tv.usec = 0 := by
        unfold Timeval.micros at spent
        omega
      simp only [dueAt, Timeval.micros, part] at due ⊢
      rw [due, Nat.mul_add, Nat.mul_one, ← Nat.add_assoc keepAliveTime, Nat.add_mul _ keepAliveInterval]
      omega

theorem Heartbeat.Timed.readReply (timed : state.Timed slack) (count : Nat) :
    (state.readReply count).Timed state.tv.usec :=
  ⟨timed.part, timed.part, Nat.zero_le _, rfl, fun _ => by
    change state.clock + (keepAliveTime * second + state.tv.usec) =
      state.clock + (keepAliveTime + keepAliveInterval * 0) * second + state.tv.usec
    rw [Nat.mul_zero, Nat.add_zero, Nat.add_assoc]⟩

/-- The client's side of the state alone is timed. -/
theorem Heartbeat.Timed.of_client (timed : state.Timed slack) (clock : next.clock = state.clock)
    (tv : next.tv = state.tv) (heartbeats : next.heartbeats = state.heartbeats)
    (pings : next.pings = state.pings) (lastData : next.lastData = state.lastData)
    (typed : next.typed = false → state.typed = false) : next.Timed slack := by
  refine ⟨?_, timed.below, ?_, ?_, ?_⟩
  · exact tv ▸ timed.part
  · exact heartbeats ▸ timed.few
  · rw [pings, heartbeats, lastData]
    exact timed.sent
  · intro untyped
    rw [clock, tv, lastData, heartbeats]
    exact timed.left (typed untyped)

/-- A message that the server reads is counted, a `MSG_PING` sends it to sleep. -/
theorem Heartbeat.serverRead_cases (success : state.serverRead setup = .ok next) :
    next = { state with
        toServer := state.toServer.drop sizeofMessage
        message := overwrite state.message 0 (state.toServer.take sizeofMessage)
        wake := next.wake
        count := state.count + 1 } ∧
      (next.wake = state.wake ∨ next.wake = some (state.clock + setup.sleepingTime * second)) := by
  simp only [serverRead] at success
  split at success
  · cases success
    exact ⟨rfl, .inl rfl⟩
  · cases success
    exact ⟨rfl, .inl rfl⟩
  · cases success
    exact ⟨rfl, .inr rfl⟩
  · cases success

theorem Heartbeat.Timed.step (timed : state.Timed slack)
    (success : heartbeatStep setup state event = .ok next) : ∃ slack, next.Timed slack := by
  cases heartbeatStep_moves success with
  | stays => exact ⟨slack, timed⟩
  | elapse waits => exact ⟨slack, timed.elapse waits⟩
  | type => exact ⟨slack, timed.of_client rfl rfl rfl rfl rfl fun untyped => nomatch untyped⟩
  | lose => exact ⟨slack, timed.of_client rfl rfl rfl rfl rfl id⟩
  | timeout _ untyped spent success => exact ⟨slack, timed.timeout untyped spent success⟩
  | read count => exact ⟨_, timed.readReply count⟩
  | serverRead _ _ success =>
    obtain ⟨same, _⟩ := Heartbeat.serverRead_cases success
    rw [same]
    exact ⟨slack, timed.of_client rfl rfl rfl rfl rfl id⟩
  | serverWake => exact ⟨slack, timed.of_client rfl rfl rfl rfl rfl id⟩

/-- The client gives up at a timeout behind three messages. -/
theorem heartbeatStep_dead (failure : heartbeatStep setup state event = .error .connectionDead) :
    state.toClient = [] ∧ state.typed = false ∧ state.tv.micros = 0 ∧
      keepAliveProbetimes ≤ state.heartbeats := by
  cases event with
  | timeout =>
    simp only [heartbeatStep] at failure
    split at failure
    · rename_i due
      unfold Heartbeat.timeout at failure
      split at failure
      · rename_i spent
        exact ⟨due.1, due.2.1, due.2.2, Nat.le_of_lt_succ spent⟩
      · cases failure
    · cases failure
  | serverRead =>
    simp only [heartbeatStep, Heartbeat.serverRead] at failure
    split at failure
    · split at failure <;> cases failure
    · cases failure
  | elapse | read | serverWake =>
    simp only [heartbeatStep] at failure
    split at failure <;> cases failure
  | type | lose => cases failure

theorem dueAt_eq (lastData slack heartbeats : Nat) : dueAt lastData slack heartbeats =
    lastData + 10 * second + slack + 3 * second * heartbeats := by
  rw [dueAt, Nat.add_mul, Nat.mul_right_comm]
  change lastData + (10 * second + 3 * second * heartbeats) + slack = _
  omega

end Silence

section Answers

namespace HeartbeatSetup

theorem ping_size (setup : HeartbeatSetup) : setup.ping.length = sizeofMessage := by
  rw [ping, List.length_append, setup.ping_length]
  rfl

end HeartbeatSetup

/-- The server answers: what it has to read are whole messages, and an answer to the first one
since the last data is there, or comes at the end of its sleep, or it comes to read it now. -/
structure Heartbeat.Attended (setup : HeartbeatSetup) (state : Heartbeat) (slack : Nat) :
    Prop where
  delivers : state.lost = false
  framed : ∃ count, state.toServer = (List.replicate count setup.ping).flatten
  memory : state.message.length = sizeofMessage
  sleeps : ∀ wake, state.wake = some wake →
    state.clock ≤ wake ∧ wake ≤ state.clock + setup.sleepingTime * second
  answers : state.heartbeats = 0 ∨ state.toClient ≠ [] ∨
    (∃ wake, state.wake = some wake ∧
      wake ≤ dueAt state.lastData slack 0 + setup.sleepingTime * second) ∨
    state.wake = none ∧ state.toServer ≠ [] ∧ state.clock ≤ dueAt state.lastData slack 0

/-- A whole `MSG_PING` sends the server to sleep. -/
theorem Heartbeat.Attended.serverRead (attended : state.Attended setup slack)
    (pending : state.toServer ≠ []) :
    ∃ count, state.serverRead setup = .ok { state with
      toServer := (List.replicate count setup.ping).flatten
      message := setup.ping
      count := state.count + 1
      wake := some (state.clock + setup.sleepingTime * second) } := by
  obtain ⟨count, framed⟩ := attended.framed
  cases count with
  | zero => exact absurd framed pending
  | succ count =>
    have split : state.toServer = setup.ping ++ (List.replicate count setup.ping).flatten := by
      rw [framed, List.replicate_succ, List.flatten_cons]
    have front : state.toServer.take sizeofMessage = setup.ping := by
      rw [split, ← setup.ping_size, List.take_left]
    have back : state.toServer.drop sizeofMessage = (List.replicate count setup.ping).flatten := by
      rw [split, ← setup.ping_size, List.drop_left]
    have message : overwrite state.message 0 setup.ping = setup.ping := by
      have covered : state.message.drop (0 + setup.ping.length) = [] := by
        rw [List.drop_eq_nil_iff, attended.memory, setup.ping_size]
        omega
      rw [overwrite, covered, List.take_zero, List.nil_append, List.append_nil]
    have type : ntohl (setup.ping.take 4) = 1 := by
      have four : setup.ping.take 4 = htonl 1 := List.take_left' rfl
      rw [four, ntohl_htonl (by decide)]
    refine ⟨count, ?_⟩
    simp only [Heartbeat.serverRead, front, back, message, type]

theorem Heartbeat.Attended.elapse (attended : state.Attended setup slack) {micros : Nat}
    (waits : state.mayWait micros = true) : (state.elapse micros).Attended setup slack := by
  obtain ⟨delivers, framed, memory, sleeps, answers⟩ := attended
  simp only [mayWait, Bool.and_eq_true, List.isEmpty_iff] at waits
  obtain ⟨⟨quiet, _⟩, server⟩ := waits
  refine ⟨delivers, framed, memory, ?_, ?_⟩
  · intro wake sleeping
    have there : state.wake = some wake := sleeping
    obtain ⟨_, most⟩ := sleeps wake there
    rw [there] at server
    have later : state.clock + micros ≤ wake := of_decide_eq_true server
    refine ⟨later, ?_⟩
    change wake ≤ state.clock + micros + setup.sleepingTime * second
    omega
  · rcases answers with never | filled | sleeping | ⟨awake, pending, _⟩
    · exact .inl never
    · exact absurd quiet filled
    · exact .inr (.inr (.inl sleeping))
    · rw [awake] at server
      exact absurd (List.isEmpty_iff.mp server) pending

theorem Heartbeat.Attended.timeout (attended : state.Attended setup slack)
    (timed : state.Timed slack) (quiet : state.toClient = []) (untyped : state.typed = false)
    (spent : state.tv.micros = 0) (success : state.timeout setup = .ok next) :
    next.Attended setup slack := by
  have due := timed.due untyped spent
  obtain ⟨delivers, ⟨count, framed⟩, memory, sleeps, answers⟩ := attended
  unfold Heartbeat.timeout at success
  split at success
  · cases success
  · cases success
    have sent : (if state.lost then state.toServer else state.toServer ++ setup.ping) =
        state.toServer ++ setup.ping := if_neg (by simp [delivers])
    have filled : state.toServer ++ setup.ping ≠ [] := by
      intro empty
      have size := setup.ping_size
      rw [(List.append_eq_nil_iff.mp empty).2] at size
      cases size
    refine ⟨delivers, ⟨count + 1, ?_⟩, memory, sleeps, .inr (.inr ?_)⟩
    · simp only [sent]
      rw [framed, List.replicate_succ', List.flatten_append, List.flatten_singleton]
    · simp only [sent]
      rcases answers with none | some | sleeping | ⟨awake, _, before⟩
      · rw [none] at due
        cases sleeping : state.wake with
        | none => exact .inr ⟨rfl, filled, Nat.le_of_eq due⟩
        | some wake => exact .inl ⟨wake, rfl, due ▸ (sleeps wake sleeping).2⟩
      · exact absurd quiet some
      · exact .inl sleeping
      · exact .inr ⟨awake, filled, before⟩

/-- With a server that sleeps less than nine seconds the client does not give up, and the server
knows all messages. -/
theorem Heartbeat.Attended.goes_on (attended : state.Attended setup slack)
    (timed : state.Timed slack) (short : setup.sleepingTime < 9) {stop : HeartbeatStop} :
    heartbeatStep setup state event ≠ .error stop := by
  intro failure
  cases stop with
  | connectionDead =>
    obtain ⟨quiet, untyped, spent, enough⟩ := heartbeatStep_dead failure
    have due := timed.due untyped spent
    have all : state.heartbeats = 3 := Nat.le_antisymm timed.few enough
    have soon := Nat.mul_le_mul_right second (Nat.le_of_lt_succ short)
    have long := second_pos
    rw [all, dueAt_eq] at due
    rcases attended.answers with none | some | ⟨wake, sleeping, before⟩ | ⟨_, _, before⟩
    · rw [none] at all
      cases all
    · exact some quiet
    · have later := (attended.sleeps wake sleeping).1
      rw [dueAt_eq] at before
      omega
    · rw [dueAt_eq] at before
      omega
  | unknownMessage type =>
    cases event with
    | serverRead =>
      simp only [heartbeatStep] at failure
      split at failure
      · rename_i due
        obtain ⟨_, reads⟩ := attended.serverRead due.2
        cases failure.symm.trans reads
      · cases failure
    | timeout =>
      simp only [heartbeatStep, Heartbeat.timeout] at failure
      split at failure
      · split at failure <;> cases failure
      · cases failure
    | elapse | read | serverWake =>
      simp only [heartbeatStep] at failure
      split at failure <;> cases failure
    | type | lose => cases failure

theorem Heartbeat.Attended.step (short : setup.sleepingTime < 9)
    (attended : ∃ slack, state.Timed slack ∧ state.Attended setup slack) (held : event ≠ .lose) :
    ∃ next, heartbeatStep setup state event = .ok next ∧
      ∃ slack, next.Timed slack ∧ next.Attended setup slack := by
  obtain ⟨slack, timed, attended⟩ := attended
  cases taken : heartbeatStep setup state event with
  | error stop => exact absurd taken (attended.goes_on timed short)
  | ok next =>
    refine ⟨next, rfl, ?_⟩
    cases heartbeatStep_moves taken with
    | stays => exact ⟨slack, timed, attended⟩
    | elapse waits => exact ⟨slack, timed.elapse waits, attended.elapse waits⟩
    | type =>
      exact ⟨slack, timed.of_client rfl rfl rfl rfl rfl (fun untyped => nomatch untyped),
        attended.delivers, attended.framed, attended.memory, attended.sleeps, attended.answers⟩
    | lose => exact absurd rfl held
    | timeout quiet untyped spent success =>
      exact ⟨slack, timed.timeout untyped spent success,
        attended.timeout timed quiet untyped spent success⟩
    | read count =>
      exact ⟨_, timed.readReply count, attended.delivers, attended.framed, attended.memory,
        attended.sleeps, .inl rfl⟩
    | serverRead awake pending success =>
      obtain ⟨count, reads⟩ := attended.serverRead pending
      cases success.symm.trans reads
      refine ⟨slack, timed.of_client rfl rfl rfl rfl rfl id, attended.delivers, ⟨count, rfl⟩,
        setup.ping_size, ?_, ?_⟩
      · rintro wake sleeping
        cases sleeping
        exact ⟨Nat.le_add_right .., Nat.le_refl _⟩
      · rcases attended.answers with none | some | ⟨wake, sleeping, _⟩ | ⟨_, _, before⟩
        · exact .inl none
        · exact .inr (.inl some)
        · rw [awake] at sleeping
          cases sleeping
        · exact .inr (.inr (.inl ⟨_, rfl, Nat.add_le_add_right before _⟩))
    | serverWake due =>
      refine ⟨slack, timed.of_client rfl rfl rfl rfl rfl id, attended.delivers, attended.framed,
        attended.memory, (fun _ sleeping => nomatch sleeping), .inr (.inl ?_)⟩
      intro empty
      simp only [Heartbeat.serverWake, attended.delivers] at empty
      have pong := (List.append_eq_nil_iff.mp empty).2
      cases pong

/-- A client that waits for an answer while the server sleeps. -/
structure Heartbeat.Probing (state : Heartbeat) (clock heartbeats wake : Nat) : Prop where
  quiet : state.toClient = []
  untyped : state.typed = false
  tv : state.tv = ⟨keepAliveInterval, 0⟩
  clock : state.clock = clock
  heartbeats : state.heartbeats = heartbeats
  sleeping : state.wake = some wake

/-- The three seconds behind a message. -/
def interval : List HeartbeatEvent := [.elapse (3 * second), .timeout]

theorem Heartbeat.Probing.interval {clock heartbeats wake : Nat}
    (probing : state.Probing clock heartbeats wake) (before : clock + 3 * second ≤ wake) :
    run (heartbeatStep setup) state interval = run (heartbeatStep setup)
        (state.elapse (3 * second)) [.timeout] ∧
      heartbeatStep setup (state.elapse (3 * second)) .timeout =
        (state.elapse (3 * second)).timeout setup := by
  obtain ⟨quiet, untyped, tv, now, _, sleeping⟩ := probing
  have full : state.tv.micros = 3 * second := by
    rw [tv]
    rfl
  have waits : state.mayWait (3 * second) = true := by
    simp only [mayWait, quiet, untyped, full, sleeping, now, List.isEmpty_nil, Bool.false_or,
      Bool.true_and, Nat.le_refl, decide_true, decide_eq_true_eq]
    exact before
  have spent : (state.elapse (3 * second)).tv.micros = 0 := by
    simp only [Heartbeat.elapse, untyped, Bool.false_eq_true, ↓reduceIte, Timeval.micros_ofMicros,
      full, Nat.sub_self]
  have step : heartbeatStep setup state (.elapse (3 * second)) =
      .ok (state.elapse (3 * second)) := if_pos waits
  exact ⟨run_cons step [.timeout], if_pos ⟨quiet, untyped, spent⟩⟩

/-- Silence behind a message leads to the next one. -/
theorem Heartbeat.Probing.again {clock heartbeats wake : Nat}
    (probing : state.Probing clock heartbeats wake) (before : clock + 3 * second ≤ wake)
    (few : heartbeats < 3) :
    ∃ next, run (heartbeatStep setup) state Chapters.interval = .ok next ∧
      next.Probing (clock + 3 * second) (heartbeats + 1) wake := by
  obtain ⟨waited, step⟩ := @Heartbeat.Probing.interval setup state _ _ _ probing before
  have count : (state.elapse (3 * second)).heartbeats = heartbeats := probing.heartbeats
  have fewer : ¬ (state.elapse (3 * second)).heartbeats + 1 > keepAliveProbetimes := by
    change ¬ _ + 1 > 3
    omega
  rw [Heartbeat.timeout, if_neg fewer] at step
  refine ⟨_, waited.trans ((run_cons step []).trans rfl), probing.quiet, probing.untyped, ?_,
    congrArg (· + 3 * second) probing.clock, congrArg (· + 1) count, probing.sleeping⟩
  have none : (state.elapse (3 * second)).tv.usec = 0 := by
    have full : state.tv.micros = 3 * second := by
      rw [probing.tv]
      rfl
    simp only [Heartbeat.elapse, probing.untyped, full, Nat.sub_self, Timeval.ofMicros_zero]
    rfl
  simp only [none]

end Answers

end Yolanda.Chapters
