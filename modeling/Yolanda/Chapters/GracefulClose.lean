import Yolanda.Foundation.Run
import Yolanda.Lib.HttpRequest
import Yolanda.Lib.LineReader

/-! The client and the server of chap-11, over a connection that the client shuts down or closes.
In each direction the bytes wait in their order until the other side reads them. -/

namespace Yolanda.Chapters

open App (ascii cString)
open Foundation
open Lib (Stop newline cString_clean cString_eq)

/-- Where the client is. It talks as long as `select` looks at the terminal; then it has called
`shutdown` or `close`, or it has ended as the server was gone. -/
inductive GraceClient where
  | talking
  | halfClosed
  | closed
  | terminated
  deriving DecidableEq

/-- Where the server is. It has ended when `read` returned 0 or failed, or when `send` failed, by
`SIGPIPE` or without. -/
inductive GraceServer where
  | reading
  | sleeping (sendLine : Bytes)
  | clientClosed
  | readFailed
  | sendFailed
  deriving DecidableEq

namespace GraceServer

def ended : GraceServer → Bool
  | .reading | .sleeping _ => false
  | .clientClosed | .readFailed | .sendFailed => true

/-- The answer the server sleeps with. -/
def unsent : GraceServer → Bytes
  | .sleeping sendLine => sendLine
  | _ => []

end GraceServer

/-- Both programs and the connection, with what the client has sent and shown and the server has
read. -/
structure GracefulClose where
  client : GraceClient
  server : GraceServer
  toServer : Bytes
  toClient : Bytes
  /-- The host of the client has got bytes for the closed socket. -/
  refused : Bool
  /-- The answer to these has come to the host of the server. -/
  reset : Bool
  sent : Bytes
  reads : List Bytes
  shown : List Bytes
  deriving DecidableEq

inductive GraceEvent where
  /-- `fgets` returns a line. -/
  | type (line : Bytes)
  /-- `select` reports the socket, and `read` delivers so many bytes. -/
  | clientRead (count : Nat)
  /-- `read` of the server delivers so many bytes. -/
  | serverRead (count : Nat)
  /-- The `sleep` of the server ends. -/
  | serverWake
  | resetArrives
  deriving DecidableEq

namespace GracefulClose

/-- `MAXLINE` -/
def maxLine : Nat := 4096

/-- What `sprintf` puts before the message. -/
def hi : Bytes := ascii "Hi, "

def start : GracefulClose :=
  { client := .talking, server := .reading, toServer := [], toClient := [], refused := false
    reset := false, sent := [], reads := [], shown := [] }

/-- The client for a line of the terminal. Before an empty one it looks for a newline. -/
def type (state : GracefulClose) (line : Bytes) : Except Stop GracefulClose :=
  let sendLine := cString line
  if sendLine.take 8 = ascii "shutdown" then .ok { state with client := .halfClosed }
  else if sendLine.take 5 = ascii "close" then
    .ok { state with
      client := .closed
      toClient := []
      refused := !state.toClient.isEmpty }
  else if sendLine = [] then .error .memory
  else
    let sendLine := if sendLine.getLast? = some newline then sendLine.dropLast else sendLine
    .ok { state with
      toServer := state.toServer ++ sendLine
      sent := state.sent ++ sendLine }

/-- The client for a readable socket. -/
def clientRead (state : GracefulClose) (count : Nat) : GracefulClose :=
  if state.toClient = [] then
    if state.server.ended then { state with client := .terminated } else state
  else if 0 < count ∧ count ≤ min maxLine state.toClient.length then
    { state with
      toClient := state.toClient.drop count
      shown := state.shown ++ [cString (state.toClient.take count)] }
  else state

/-- The server for what `read` returns, up to its `sleep`. -/
def serverRead (state : GracefulClose) (count : Nat) : Except Stop GracefulClose :=
  if count = 0 then
    if state.reset then .ok { state with server := .readFailed }
    else if state.toServer = [] ∧ state.client ≠ .talking then
      .ok { state with server := .clientClosed }
    else .ok state
  else if count ≤ min maxLine state.toServer.length then
    let message := state.toServer.take count
    if count < maxLine ∧ (hi ++ cString message).length < maxLine then
      .ok { state with
        server := .sleeping (hi ++ cString message)
        toServer := state.toServer.drop count
        reads := state.reads ++ [message] }
    else .error .memory
  else .ok state

/-- `send` of the server. -/
def serverWake (state : GracefulClose) (sendLine : Bytes) : GracefulClose :=
  if state.reset then { state with server := .sendFailed }
  else if state.client = .closed then { state with
    server := .reading
    refused := true }
  else { state with
    server := .reading
    toClient := state.toClient ++ sendLine }

end GracefulClose

open GracefulClose

/-- A step of one of the programs or of the network. One that cannot be taken changes nothing. -/
def graceStep (state : GracefulClose) : GraceEvent → Except Stop GracefulClose
  | .type line => if state.client = .talking then state.type line else .ok state
  | .clientRead count =>
    if state.client = .talking ∨ state.client = .halfClosed then .ok (state.clientRead count)
    else .ok state
  | .serverRead count => if state.server = .reading then state.serverRead count else .ok state
  | .serverWake =>
    match state.server with
    | .sleeping sendLine => .ok (state.serverWake sendLine)
    | _ => .ok state
  | .resetArrives =>
    if state.client = .closed ∧ state.refused then .ok { state with reset := true } else .ok state

namespace GracefulClose

variable {state next final : GracefulClose} {event : GraceEvent}

/-- The changes a step can make. -/
inductive Move (state : GracefulClose) : GracefulClose → Prop where
  | shutdown (talks : state.client = .talking) : Move state { state with client := .halfClosed }
  | close (talks : state.client = .talking) : Move state { state with
      client := .closed
      toClient := []
      refused := !state.toClient.isEmpty }
  | sends (talks : state.client = .talking) (sendLine : Bytes) (clean : 0 ∉ sendLine) :
      Move state { state with
        toServer := state.toServer ++ sendLine
        sent := state.sent ++ sendLine }
  | shows (connected : state.client = .talking ∨ state.client = .halfClosed) {chunk rest : Bytes}
      (parts : state.toClient = chunk ++ rest) (filled : chunk ≠ []) :
      Move state { state with
        toClient := rest
        shown := state.shown ++ [cString chunk] }
  | terminates (connected : state.client = .talking ∨ state.client = .halfClosed)
      (empty : state.toClient = []) (ended : state.server.ended = true) :
      Move state { state with client := .terminated }
  | fails (reads : state.server = .reading) (reset : state.reset = true) :
      Move state { state with server := .readFailed }
  | leaves (reads : state.server = .reading) (empty : state.toServer = [])
      (finished : state.client ≠ .talking) : Move state { state with server := .clientClosed }
  | takes (reads : state.server = .reading) {message rest : Bytes}
      (parts : state.toServer = message ++ rest) (filled : message ≠ []) :
      Move state { state with
        server := .sleeping (hi ++ cString message)
        toServer := rest
        reads := state.reads ++ [message] }
  | answers {sendLine : Bytes} (sleeps : state.server = .sleeping sendLine)
      (connected : state.client ≠ .closed) : Move state { state with
        server := .reading
        toClient := state.toClient ++ sendLine }
  | refuses {sendLine : Bytes} (sleeps : state.server = .sleeping sendLine)
      (closed : state.client = .closed) : Move state { state with
        server := .reading
        refused := true }
  | dies {sendLine : Bytes} (sleeps : state.server = .sleeping sendLine)
      (reset : state.reset = true) : Move state { state with server := .sendFailed }
  | resets (closed : state.client = .closed) : Move state { state with reset := true }

/-- A read takes a first part of what waits. -/
theorem first_part {waiting : Bytes} {count : Nat} (some : 0 < count)
    (inside : count ≤ min maxLine waiting.length) :
    waiting = waiting.take count ++ waiting.drop count ∧ waiting.take count ≠ [] := by
  refine ⟨(List.take_append_drop ..).symm, ?_⟩
  intro empty
  have size := congrArg List.length empty
  rw [List.length_take, List.length_nil] at size
  omega

theorem type_move (talks : state.client = .talking) {line : Bytes}
    (success : state.type line = .ok next) : Move state next := by
  have clean := cString_clean line
  unfold type at success
  simp only [] at success
  split at success
  · cases success
    exact .shutdown talks
  · split at success
    · cases success
      exact .close talks
    · split at success
      · cases success
      · cases success
        refine .sends talks _ ?_
        split
        · exact fun member => clean (List.mem_of_mem_dropLast member)
        · exact clean

theorem clientRead_move (connected : state.client = .talking ∨ state.client = .halfClosed)
    (count : Nat) : state.clientRead count = state ∨ Move state (state.clientRead count) := by
  unfold clientRead
  split
  case isTrue empty =>
    split
    case isTrue ended => exact .inr (.terminates connected empty ended)
    case isFalse => exact .inl rfl
  case isFalse =>
    split
    case isTrue within =>
      obtain ⟨parts, filled⟩ := first_part within.1 within.2
      exact .inr (.shows connected parts filled)
    case isFalse => exact .inl rfl

theorem serverRead_move (reads : state.server = .reading) {count : Nat}
    (success : state.serverRead count = .ok next) : next = state ∨ Move state next := by
  unfold serverRead at success
  split at success
  · split at success
    case isTrue reset =>
      cases success
      exact .inr (.fails reads reset)
    case isFalse =>
      split at success
      case isTrue left =>
        cases success
        exact .inr (.leaves reads left.1 left.2)
      case isFalse =>
        cases success
        exact .inl rfl
  · split at success
    case isTrue some within =>
      simp only [] at success
      split at success
      · cases success
        obtain ⟨parts, filled⟩ := first_part (Nat.pos_of_ne_zero some) within
        exact .inr (.takes reads parts filled)
      · cases success
    case isFalse =>
      cases success
      exact .inl rfl

theorem serverWake_move {sendLine : Bytes} (sleeps : state.server = .sleeping sendLine) :
    Move state (state.serverWake sendLine) := by
  unfold serverWake
  split
  case isTrue reset => exact .dies sleeps reset
  case isFalse =>
    split
    case isTrue closed => exact .refuses sleeps closed
    case isFalse connected => exact .answers sleeps connected

theorem graceStep_move (success : graceStep state event = .ok next) :
    next = state ∨ Move state next := by
  cases event with
  | type line =>
    simp only [graceStep] at success
    split at success
    case isTrue talks => exact .inr (type_move talks success)
    case isFalse =>
      cases success
      exact .inl rfl
  | clientRead count =>
    simp only [graceStep] at success
    split at success
    case isTrue connected =>
      cases success
      exact clientRead_move connected count
    case isFalse =>
      cases success
      exact .inl rfl
  | serverRead count =>
    simp only [graceStep] at success
    split at success
    case isTrue reads => exact serverRead_move reads success
    case isFalse =>
      cases success
      exact .inl rfl
  | serverWake =>
    simp only [graceStep] at success
    split at success
    · cases success
      exact .inr (serverWake_move ‹_›)
    · cases success
      exact .inl rfl
  | resetArrives =>
    simp only [graceStep] at success
    split at success
    case isTrue refused =>
      cases success
      exact .inr (.resets refused.1)
    case isFalse =>
      cases success
      exact .inl rfl

/-- What the server makes of the messages it has read. -/
def greetings (state : GracefulClose) : Bytes := state.reads.flatMap (hi ++ ·)

/-- Nothing is lost on the way to the server and, unless the client closes, on the way back. -/
structure Polite (state : GracefulClose) : Prop where
  clean : 0 ∉ state.sent
  received : state.sent = state.reads.flatten ++ state.toServer
  filled : ∀ message ∈ state.reads, message ≠ []
  answered : state.client ≠ .closed →
    state.greetings = state.shown.flatten ++ state.toClient ++ state.server.unsent
  undisturbed : state.client ≠ .closed →
    state.reset = false ∧ state.server ≠ .readFailed ∧ state.server ≠ .sendFailed
  gone : state.server = .clientClosed → state.toServer = [] ∧ state.client ≠ .talking
  done : state.client = .terminated → state.server = .clientClosed ∧ state.toClient = []

theorem start_polite : start.Polite where
  clean := List.not_mem_nil
  received := rfl
  filled := fun _ member => (nomatch member)
  answered := fun _ => rfl
  undisturbed := fun _ => ⟨rfl, nofun, nofun⟩
  gone := fun ended => (nomatch ended)
  done := fun ended => (nomatch ended)

/-- The server ends before a client that does not close only when that has shut down. -/
theorem Polite.ended (polite : state.Polite) (unclosed : state.client ≠ .closed)
    (ended : state.server.ended = true) : state.server = .clientClosed := by
  obtain ⟨_, unfailed, alive⟩ := polite.undisturbed unclosed
  cases here : state.server with
  | reading => rw [here] at ended; cases ended
  | sleeping sendLine => rw [here] at ended; cases ended
  | clientClosed => rfl
  | readFailed => exact absurd here unfailed
  | sendFailed => exact absurd here alive

/-- The answers have no terminator in them. -/
theorem Polite.clean_greetings (polite : state.Polite) : 0 ∉ state.greetings := by
  intro member
  obtain ⟨message, read, inside⟩ := List.mem_flatMap.mp member
  rcases List.mem_append.mp inside with greeting | text
  · exact absurd greeting (by decide)
  · apply polite.clean
    rw [polite.received]
    exact List.mem_append_left _ (List.mem_flatten.mpr ⟨message, read, text⟩)

theorem Polite.clean_message (polite : state.Polite) {message rest : Bytes}
    (parts : state.toServer = message ++ rest) : 0 ∉ message := by
  intro member
  apply polite.clean
  rw [polite.received, parts]
  exact List.mem_append_right _ (List.mem_append_left _ member)

theorem Polite.clean_chunk (polite : state.Polite) (connected : state.client ≠ .closed)
    {chunk rest : Bytes} (parts : state.toClient = chunk ++ rest) : 0 ∉ chunk := by
  intro member
  apply polite.clean_greetings
  rw [polite.answered connected, parts]
  exact List.mem_append_left _ (List.mem_append_right _ (List.mem_append_left _ member))

/-- Only a client that has closed lets the server be reset. -/
theorem Polite.closed_of_reset (polite : state.Polite) (reset : state.reset = true) :
    state.client = .closed := by
  by_contra connected
  have unset := (polite.undisturbed connected).1
  rw [reset] at unset
  cases unset

theorem Polite.move (polite : state.Polite) (move : Move state next) : next.Polite := by
  cases move with
  | shutdown talks =>
    have connected : state.client ≠ .closed := by simp [talks]
    exact ⟨polite.clean, polite.received, polite.filled, fun _ => polite.answered connected,
      fun _ => polite.undisturbed connected, fun ended => ⟨(polite.gone ended).1, nofun⟩, nofun⟩
  | close talks =>
    exact ⟨polite.clean, polite.received, polite.filled, fun unclosed => absurd rfl unclosed,
      fun unclosed => absurd rfl unclosed, fun ended => ⟨(polite.gone ended).1, nofun⟩, nofun⟩
  | sends talks sendLine clean =>
    have connected : state.client ≠ .closed := by simp [talks]
    refine ⟨?_, ?_, polite.filled, fun _ => polite.answered connected,
      fun _ => polite.undisturbed connected, fun ended => absurd talks (polite.gone ended).2,
      fun ended => ?_⟩
    · rw [List.mem_append, not_or]
      exact ⟨polite.clean, clean⟩
    · rw [polite.received, List.append_assoc]
    · cases talks.symm.trans ended
  | @shows connected chunk rest parts filled =>
    have unclosed : state.client ≠ .closed := by
      rcases connected with talks | half
      · simp [talks]
      · simp [half]
    refine ⟨polite.clean, polite.received, polite.filled, fun _ => ?_,
      fun _ => polite.undisturbed unclosed, polite.gone, fun ended => ?_⟩
    · have whole := polite.answered unclosed
      rw [parts] at whole
      change state.greetings = (state.shown ++ [cString chunk]).flatten ++ rest ++
        state.server.unsent
      rw [whole, cString_eq (polite.clean_chunk unclosed parts), List.flatten_append,
        List.flatten_singleton]
      simp only [List.append_assoc]
    · have empty := (polite.done ended).2
      rw [parts] at empty
      exact absurd (List.append_eq_nil_iff.mp empty).1 filled
  | terminates connected empty ended =>
    have unclosed : state.client ≠ .closed := by
      rcases connected with talks | half
      · simp [talks]
      · simp [half]
    have left := polite.ended unclosed ended
    exact ⟨polite.clean, polite.received, polite.filled, fun _ => polite.answered unclosed,
      fun _ => polite.undisturbed unclosed, fun ended => ⟨(polite.gone ended).1, nofun⟩,
      fun _ => ⟨left, empty⟩⟩
  | fails reads reset =>
    have closed := polite.closed_of_reset reset
    refine ⟨polite.clean, polite.received, polite.filled, fun unclosed => absurd closed unclosed,
      fun unclosed => absurd closed unclosed, nofun, fun ended => ?_⟩
    cases closed.symm.trans ended
  | leaves reads empty finished =>
    refine ⟨polite.clean, polite.received, polite.filled, fun unclosed => ?_, fun unclosed => ?_,
      fun _ => ⟨empty, finished⟩, fun ended => ?_⟩
    · have whole := polite.answered unclosed
      rw [reads] at whole
      exact whole
    · exact ⟨(polite.undisturbed unclosed).1, nofun, nofun⟩
    · cases reads.symm.trans (polite.done ended).1
  | @takes reads message rest parts filled =>
    refine ⟨polite.clean, ?_, ?_, fun unclosed => ?_, fun unclosed => ?_, nofun, fun ended => ?_⟩
    · rw [polite.received, parts, List.flatten_append, List.flatten_singleton, List.append_assoc]
    · intro other member
      rcases List.mem_append.mp member with old | new
      · exact polite.filled other old
      · rw [List.mem_singleton.mp new]
        exact filled
    · have whole := polite.answered unclosed
      rw [reads] at whole
      change (state.reads ++ [message]).flatMap (hi ++ ·) =
        state.shown.flatten ++ state.toClient ++ (hi ++ cString message)
      rw [List.flatMap_append, List.flatMap_singleton, cString_eq (polite.clean_message parts)]
      exact congrArg (· ++ (hi ++ message)) (whole.trans (List.append_nil _))
    · exact ⟨(polite.undisturbed unclosed).1, nofun, nofun⟩
    · cases reads.symm.trans (polite.done ended).1
  | @answers sendLine sleeps connected =>
    refine ⟨polite.clean, polite.received, polite.filled, fun _ => ?_, fun _ => ?_, nofun,
      fun ended => ?_⟩
    · have whole := polite.answered connected
      rw [sleeps] at whole
      change state.greetings = state.shown.flatten ++ (state.toClient ++ sendLine) ++ []
      rw [whole, List.append_nil, List.append_assoc]
      rfl
    · exact ⟨(polite.undisturbed connected).1, nofun, nofun⟩
    · cases sleeps.symm.trans (polite.done ended).1
  | refuses sleeps closed =>
    refine ⟨polite.clean, polite.received, polite.filled, fun unclosed => absurd closed unclosed,
      fun unclosed => absurd closed unclosed, nofun, fun ended => ?_⟩
    cases closed.symm.trans ended
  | dies sleeps reset =>
    have closed := polite.closed_of_reset reset
    refine ⟨polite.clean, polite.received, polite.filled, fun unclosed => absurd closed unclosed,
      fun unclosed => absurd closed unclosed, nofun, fun ended => ?_⟩
    cases closed.symm.trans ended
  | resets closed =>
    refine ⟨polite.clean, polite.received, polite.filled, fun unclosed => absurd closed unclosed,
      fun unclosed => absurd closed unclosed, polite.gone, fun ended => ?_⟩
    cases closed.symm.trans ended

theorem Polite.step (polite : state.Polite) (success : graceStep state event = .ok next) :
    next.Polite := by
  rcases graceStep_move success with rfl | move
  · exact polite
  · exact polite.move move

theorem run_polite {events : List GraceEvent} (success : run graceStep start events = .ok state) :
    state.Polite :=
  run_keeps Polite (fun _ _ _ polite taken => polite.step taken) start_polite success

/-- What is to do at most: a byte on its way to the server comes back behind a greeting. -/
def work (state : GracefulClose) : Nat :=
  7 * state.toServer.length + state.toClient.length +
    (match state.server with
      | .reading => 1
      | .sleeping sendLine => sendLine.length + 2
      | _ => 0) +
    if state.client = .terminated then 0 else 1

/-- The client sends nothing more. -/
def Leaving (state : GracefulClose) : Prop :=
  state.client = .halfClosed ∨ state.client = .terminated

theorem Leaving.silent (leaving : state.Leaving) :
    state.client ≠ .talking ∧ state.client ≠ .closed := by
  rcases leaving with half | done
  · simp [half]
  · simp [done]

/-- Each change brings the end nearer once the client has shut down. -/
theorem Move.nearer (polite : state.Polite) (leaving : state.Leaving) (move : Move state next) :
    (next.Leaving ∧ next.sent = state.sent) ∧ next.work < state.work := by
  obtain ⟨silent, unclosed⟩ := leaving.silent
  cases move with
  | shutdown talks => exact absurd talks silent
  | close talks => exact absurd talks silent
  | sends talks sendLine clean => exact absurd talks silent
  | @shows connected chunk rest parts filled =>
    refine ⟨⟨leaving, rfl⟩, ?_⟩
    have some := List.length_pos_of_ne_nil filled
    simp only [work, parts, List.length_append]
    omega
  | terminates connected empty ended =>
    refine ⟨⟨.inr rfl, rfl⟩, ?_⟩
    have running : state.client ≠ .terminated := by
      rcases connected with talks | half
      · simp [talks]
      · simp [half]
    simp only [work, if_pos, if_neg running]
    omega
  | fails reads reset => exact absurd (polite.closed_of_reset reset) unclosed
  | leaves reads empty finished =>
    refine ⟨⟨leaving, rfl⟩, ?_⟩
    simp only [work, reads]
    omega
  | @takes reads message rest parts filled =>
    refine ⟨⟨leaving, rfl⟩, ?_⟩
    have some := List.length_pos_of_ne_nil filled
    have greeting : hi.length = 4 := rfl
    simp only [work, reads, parts, cString_eq (polite.clean_message parts), List.length_append,
      greeting]
    omega
  | @answers sendLine sleeps connected =>
    refine ⟨⟨leaving, rfl⟩, ?_⟩
    simp only [work, sleeps, List.length_append]
    omega
  | refuses sleeps closed => exact absurd closed unclosed
  | dies sleeps reset => exact absurd (polite.closed_of_reset reset) unclosed
  | resets closed => exact absurd closed unclosed

/-- Something is to do until the client has ended. -/
theorem Polite.goes_on (polite : state.Polite) (half : state.client = .halfClosed) :
    ∃ event next, graceStep state event = .ok next ∧ Move state next := by
  have connected : state.client = .talking ∨ state.client = .halfClosed := .inr half
  have unclosed : state.client ≠ .closed := by simp [half]
  by_cases quiet : state.toClient = []
  · cases here : state.server with
    | sleeping sendLine =>
      refine ⟨.serverWake, state.serverWake sendLine, ?_, serverWake_move here⟩
      simp only [graceStep, here]
    | reading =>
      by_cases empty : state.toServer = []
      · refine ⟨.serverRead 0, _, ?_, .leaves here empty (by simp [half])⟩
        simp [graceStep, serverRead, here, half, empty, (polite.undisturbed unclosed).1]
      · have size := List.length_pos_of_ne_nil empty
        have within : 1 ≤ min maxLine state.toServer.length := by
          have large : maxLine = 4096 := rfl
          omega
        obtain ⟨parts, filled⟩ := first_part Nat.one_pos within
        have short : (hi ++ cString (state.toServer.take 1)).length < maxLine := by
          rw [cString_eq (polite.clean_message parts), List.length_append, List.length_take]
          have greeting : hi.length = 4 := rfl
          have large : maxLine = 4096 := rfl
          omega
        refine ⟨.serverRead 1, _, ?_, .takes here parts filled⟩
        have room : 1 < maxLine ∧ (hi ++ cString (state.toServer.take 1)).length < maxLine :=
          ⟨by decide, short⟩
        simp only [graceStep, serverRead, if_pos here, if_neg Nat.one_ne_zero, if_pos within,
          if_pos room]
    | clientClosed =>
      refine ⟨.clientRead 0, state.clientRead 0, ?_, ?_⟩
      · simp only [graceStep, if_pos connected]
      · have ended : state.server.ended = true := by rw [here]; rfl
        rw [clientRead, if_pos quiet, if_pos ended]
        exact .terminates connected quiet ended
    | readFailed => exact absurd here (polite.undisturbed unclosed).2.1
    | sendFailed => exact absurd here (polite.undisturbed unclosed).2.2
  · have size := List.length_pos_of_ne_nil quiet
    have within : 1 ≤ min maxLine state.toClient.length := by
      have large : maxLine = 4096 := rfl
      omega
    obtain ⟨parts, filled⟩ := first_part Nat.one_pos within
    refine ⟨.clientRead 1, state.clientRead 1, ?_, ?_⟩
    · simp only [graceStep, if_pos connected]
    · rw [clientRead, if_neg quiet, if_pos ⟨Nat.one_pos, within⟩]
      exact .shows connected parts filled

/-- A message that is too long for the arrays of the server, or a line of no characters. -/
def Overruns (state : GracefulClose) : GraceEvent → Prop
  | .type line => cString line = []
  | .serverRead count => 4091 < count ∧ count ≤ state.toServer.length
  | _ => False

theorem Polite.overruns (polite : state.Polite) {stop : Stop}
    (failure : graceStep state event = .error stop) : state.Overruns event := by
  cases event with
  | type line =>
    simp only [graceStep] at failure
    split at failure
    · unfold type at failure
      simp only [] at failure
      split at failure
      · cases failure
      · split at failure
        · cases failure
        · split at failure
          · assumption
          · cases failure
    · cases failure
  | clientRead count =>
    simp only [graceStep] at failure
    split at failure <;> cases failure
  | serverRead count =>
    simp only [graceStep] at failure
    split at failure
    · unfold serverRead at failure
      split at failure
      · split at failure
        · cases failure
        · split at failure <;> cases failure
      · split at failure
        case isTrue some within =>
          simp only [] at failure
          split at failure
          · cases failure
          case isFalse long =>
            obtain ⟨parts, _⟩ := first_part (Nat.pos_of_ne_zero some) within
            have greeting : hi.length = 4 := rfl
            have large : maxLine = 4096 := rfl
            rw [cString_eq (polite.clean_message parts), List.length_append, List.length_take]
              at long
            simp only [Overruns]
            omega
        case isFalse => cases failure
    · cases failure
  | serverWake =>
    simp only [graceStep] at failure
    split at failure <;> cases failure
  | resetArrives =>
    simp only [graceStep] at failure
    split at failure <;> cases failure

end GracefulClose

/-- In every run the server has read what the client sent as far as it is not on its way, and the
client that does not close has shown the greetings for it as far as they are not. A client that
ends after `shutdown` has shown the greetings for all it sent; it can always get there, and within
so many steps. Only a message of more than 4091 characters, or a line of none, is too much for the
arrays. -/
theorem shutdown_loses_nothing {events : List GraceEvent} {state : GracefulClose}
    (success : run graceStep start events = .ok state) :
    (state.sent = state.reads.flatten ++ state.toServer ∧ (state.client ≠ .closed →
      state.greetings = state.shown.flatten ++ state.toClient ++ state.server.unsent)) ∧
    (state.client = .terminated →
      state.sent = state.reads.flatten ∧ state.greetings = state.shown.flatten) ∧
    (state.client = .talking → state.server.ended = false) ∧
    (state.client = .halfClosed →
      (∃ more final, run graceStep state more = .ok final ∧ final.client = .terminated ∧
        final.sent = state.sent) ∧
      ∀ more final, Along graceStep (fun state event => graceStep state event ≠ .ok state) state
        more → run graceStep state more = .ok final →
          more.length ≤ 7 * state.toServer.length + state.toClient.length +
            state.server.unsent.length + 3) ∧
    ∀ event stop, graceStep state event = .error stop → state.Overruns event := by
  have polite := run_polite success
  refine ⟨⟨polite.received, polite.answered⟩, ?_, ?_, ?_, fun _ _ => polite.overruns⟩
  · intro done
    obtain ⟨left, quiet⟩ := polite.done done
    have whole := polite.answered (by simp [done])
    have sent := polite.received
    rw [(polite.gone left).1, List.append_nil] at sent
    rw [left, quiet, GraceServer.unsent, List.append_nil, List.append_nil] at whole
    · exact ⟨sent, whole⟩
    · exact nofun
  · intro talks
    by_contra running
    have ended : state.server.ended = true := by simpa using running
    exact (polite.gone (polite.ended (by simp [talks]) ended)).2 talks
  · intro half
    constructor
    · obtain ⟨more, final, _, finishes, ⟨_, _, same⟩, ended⟩ := run_settles (fun _ => True)
        (fun other => other.client = .terminated)
        (fun other => other.Polite ∧ other.Leaving ∧ other.sent = state.sent) work (by
          intro other ⟨polite, leaving, same⟩ unfinished
          obtain ⟨event, next, taken, move⟩ := polite.goes_on (leaving.resolve_right unfinished)
          obtain ⟨⟨still, sent⟩, less⟩ := move.nearer polite leaving
          exact ⟨event, next, trivial, taken, ⟨polite.move move, still, sent.trans same⟩, less⟩)
        ⟨polite, .inl half, rfl⟩
      exact ⟨more, final, finishes, ended, same⟩
    · intro more final effective finishes
      have bound := run_length_le work (fun other => other.Polite ∧ other.Leaving) (by
          intro other event next ⟨polite, leaving⟩ changes taken
          rcases graceStep_move taken with rfl | move
          · exact absurd taken changes
          · obtain ⟨⟨still, _⟩, less⟩ := move.nearer polite leaving
            exact ⟨⟨polite.move move, still⟩, less⟩)
        ⟨polite, .inl half⟩ effective finishes
      have most : state.work ≤ 7 * state.toServer.length + state.toClient.length +
          state.server.unsent.length + 3 := by
        have running : state.client ≠ .terminated := by simp [half]
        simp only [work, if_neg running]
        cases state.server with
        | sleeping sendLine =>
          simp only [GraceServer.unsent]
          omega
        | _ =>
          simp only [GraceServer.unsent, List.length_nil]
          omega
      omega

/-- Two lines are greeted together, and the client shuts down before it has seen the greeting. -/
def soonGone : List GraceEvent :=
  [.type (ascii "one\n"), .type (ascii "two\n"), .serverRead 6, .type (ascii "shutdown\n"),
    .serverWake, .serverRead 0, .clientRead 4, .clientRead 6, .clientRead 0]

theorem shutdown_loses_nothing_sample : ∃ state, run graceStep start soonGone = .ok state ∧
    state.client = .terminated ∧ state.sent = state.reads.flatten ∧
    state.greetings = state.shown.flatten :=
  ⟨_, rfl, rfl, (@shutdown_loses_nothing soonGone _ rfl).2.1 rfl⟩

end Yolanda.Chapters
