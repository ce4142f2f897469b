import Yolanda.App.HttpStep
import Yolanda.App.OutputStream

/-! The end of the sending side. Nothing in a connection remembers that it was shut
down, and nothing in `http_onMessage` or `handle_read` looks at the output queue, so
both laws about it hold only as long as the events stay within a condition. -/

namespace Yolanda.App

open Foundation TcpConnection

/-- The read event delivers bytes on which `parse_http_request` returns. -/
def Delivers (connection : TcpConnection) (received : Option Bytes) (parsed : Parsing) : Prop :=
  ∃ bytes input request, received = some bytes ∧ bytes ≠ [] ∧
    connection.inputBuffer.socketRead (some bytes) = .ok (bytes.length, input) ∧
    connection.request = some request ∧ parseLoop.Returns ⟨input, request⟩ parsed

variable {connection after : TcpConnection} {turn : Turn} {received : Option Bytes} {fuel : Nat}

/-- A read event of a watched connection closes it or completes a request. -/
theorem httpStep_read (watched : connection.watched = true)
    (success : httpStep fuel connection (.read received turn) = .ok after) :
    ((received = none ∨ received = some []) ∧ after = closedConnection connection) ∨
      ∃ input request parsed sent closes, Delivers connection received parsed ∧
        Handled { connection with inputBuffer := input } turn request parsed sent closes after := by
  rcases httpStep_read_cases watched success with closed | ⟨bytes, input, same, some, read, message⟩
  · exact .inl closed
  · obtain ⟨request, parsed, sent, closes, handled⟩ := httpOnMessage_handled message
    exact .inr ⟨input, request, parsed, sent, closes,
      ⟨bytes, input, request, same, some, read, handled.pending, handled.returns⟩, handled⟩

section Drained

/-- What a call that ends the output leaves in the queue. -/
def Action.queued : Action → Bytes
  | .shutdown queued | .remove queued => queued
  | _ => []

/-- A call that ends the output finds the queue empty and all accepted bytes written. -/
def DrainedBefore (before : List Action) (action : Action) : Prop :=
  action.endsOutput = true → action.queued = [] ∧ written before = accepted before

/-- A read event that ends the output does so with nothing left in the queue: the peer
closes on an empty queue, and a request that closes is answered by one whole write. No
part of a response is too long for the queue. -/
structure EndsDrained (connection : TcpConnection) (received : Option Bytes) (turn : Turn) :
    Prop where
  closed : received = none ∨ received = some [] → connection.outputBuffer.contents = []
  small : ∀ parsed, Delivers connection received parsed →
    (connection.unsent (turn.respond parsed.request).2.wire turn.responseWrite).length < 2 ^ 32
  answered : ∀ parsed, Delivers connection received parsed →
    (turn.respond parsed.request).1.closeConnection = .ok true →
    connection.idle = true ∧ ∃ count, turn.responseWrite = .wrote count ∧
      (turn.respond parsed.request).2.wire.length ≤ count

def DrainingEvent (connection : TcpConnection) : HttpEvent → Prop
  | .read received turn => connection.watched = true → EndsDrained connection received turn
  | .writable _ => True

structure Draining (connection : TcpConnection) : Prop where
  sound : connection.Sound
  drained : Orderly DrainedBefore connection.trace

private theorem drained_append {trace : List Action} (drained : Orderly DrainedBefore trace)
    (actions : List Action) (stays : ∀ action ∈ actions, action.endsOutput = false) :
    Orderly DrainedBefore (trace ++ actions) := by
  apply drained.append_free
  intro action member before ends
  rw [stays action member] at ends
  cases ends

theorem Draining.record (draining : Draining connection) (actions : List Action)
    (silent : written actions = [] ∧ accepted actions = [])
    (stays : ∀ action ∈ actions, action.endsOutput = false) :
    Draining (connection.record actions) :=
  ⟨draining.sound.record _ silent, drained_append draining.drained _ stays⟩

private theorem calls_silent (turn : Turn) (request : HttpRequest) :
    written (turn.calls request) = [] ∧ accepted (turn.calls request) = [] := by
  unfold Turn.calls
  cases turn.requestCallback with
  | none => exact ⟨rfl, rfl⟩
  | some callback => exact ⟨rfl, rfl⟩

theorem TcpConnection.Sound.writable (sound : connection.Sound) {result : WriteResult}
    (watched : connection.watched = true)
    (success : httpStep fuel connection (.writable result) = .ok after) : after.Sound := by
  rcases httpStep_writable_cases watched sound.output success with
    same | ⟨taken, rest, _, parts, same⟩
  · rw [same]
    exact sound.record _ ⟨rfl, rfl⟩
  · rw [same]
    exact sound.flush parts

/-- Ending the output with an empty queue. -/
theorem Draining.finish (draining : Draining connection) (action : Action)
    (empty : connection.outputBuffer.contents = []) (queued : action.queued = [])
    (silent : written [action] = [] ∧ accepted [action] = []) :
    Draining (connection.record [action]) := by
  have stream := draining.sound.stream
  rw [empty, List.append_nil] at stream
  constructor
  · exact draining.sound.record _ silent
  · exact draining.drained.concat fun _ => ⟨queued, stream⟩

theorem Draining.closed (draining : Draining connection)
    (empty : connection.outputBuffer.contents = []) : Draining (closedConnection connection) := by
  have removed := draining.finish (.remove connection.outputBuffer.contents) empty empty
    ⟨rfl, rfl⟩
  have told := removed.record [.closed] ⟨rfl, rfl⟩ (by simp [Action.endsOutput])
  have trace : (closedConnection connection).trace =
      ((connection.record [.remove connection.outputBuffer.contents]).record [.closed]).trace := by
    simp [closedConnection, TcpConnection.record]
  constructor
  · constructor
    · exact told.sound.output
    · rw [trace]
      exact told.sound.stream
  · rw [trace]
    exact told.drained

/-- Handling a request keeps the output in order, when it does not close or its
response went out whole. -/
theorem Draining.handled (draining : Draining connection) {input : Buffer} {request : HttpRequest}
    {parsed : Parsing} {sent : TcpConnection} {closes : Bool}
    (delivers : Delivers connection received parsed) (ends : EndsDrained connection received turn)
    (handled : Handled { connection with inputBuffer := input } turn request parsed sent closes
      after) : Draining after := by
  have small := ends.small parsed delivers
  have called := draining.record _ (calls_silent turn parsed.request)
    fun action member => ((calls_requests turn parsed.request).2 action member).1
  have start : Draining ({ connection with
      inputBuffer := parsed.input
      request := some parsed.request }.record (turn.calls parsed.request)) :=
    ⟨⟨called.sound.output, called.sound.stream⟩, called.drained⟩
  have sentDraining : Draining sent := by
    obtain ⟨actions, extended, sending, _⟩ := handled.sentData.sending
    constructor
    · exact handled.sentData.sound start.sound small
    · rw [extended]
      exact drained_append start.drained _ sending.stays
  rw [handled.result]
  cases closes with
  | false => exact ⟨⟨sentDraining.sound.output, sentDraining.sound.stream⟩, sentDraining.drained⟩
  | true =>
    obtain ⟨idle, count, wrote, all⟩ := ends.answered parsed delivers handled.decides
    obtain ⟨sentCount, data⟩ := handled.sends
    have empty : sent.outputBuffer.contents = [] := by
      have whole := sendData_all ({ connection with
        inputBuffer := parsed.input
        request := some parsed.request }.record (turn.calls parsed.request)) idle all
      rw [wrote, whole] at data
      obtain ⟨_, same⟩ := Prod.mk.inj (Except.ok.inj data)
      rw [← same]
      exact idle_contents draining.sound.output idle
    have finished := sentDraining.finish (.shutdown sent.outputBuffer.contents) empty empty
      ⟨rfl, rfl⟩
    exact ⟨⟨finished.sound.output, finished.sound.stream⟩, finished.drained⟩

theorem Draining.step (draining : Draining connection) {event : HttpEvent}
    (condition : DrainingEvent connection event)
    (success : httpStep fuel connection event = .ok after) : Draining after := by
  cases watched : connection.watched with
  | false =>
    rw [httpStep_unwatched watched] at success
    cases success
    exact draining
  | true =>
    cases event with
    | read received turn =>
      have ends : EndsDrained connection received turn := condition watched
      rcases httpStep_read watched success with
        ⟨gone, same⟩ | ⟨input, request, parsed, sent, closes, delivers, handled⟩
      · subst same
        exact draining.closed (ends.closed gone)
      · exact draining.handled delivers ends handled
    | writable result =>
      obtain ⟨_, taken, updates, trace, _, stays⟩ :=
        httpStep_writable watched draining.sound.output success
      refine ⟨draining.sound.writable watched success, ?_⟩
      rw [trace]
      exact drained_append draining.drained _ stays

/-- In a run whose events end the output only when it is drained, every byte accepted
for sending is written before the sending side is shut down or the channel removed. -/
theorem output_drained {self eventLoop : Nat} {connectedFd : Int} {events : List HttpEvent}
    {final : TcpConnection}
    (along : Along (httpStep fuel) DrainingEvent (.established self eventLoop connectedFd) events)
    (success : run (httpStep fuel) (.established self eventLoop connectedFd) events = .ok final) :
    ∀ before action, before ++ [action] <+: final.trace → action.endsOutput = true →
      action.queued = [] ∧ written before = accepted before := by
  have start : Draining (.established self eventLoop connectedFd) :=
    ⟨⟨Buffer.new_valid, Buffer.new_contents⟩, Orderly.nil⟩
  have finished := run_invariant Draining
    (fun _ _ _ draining condition taken => draining.step condition taken) start along success
  exact finished.drained

end Drained

section Silent

def Action.isShutdown : Action → Bool
  | .shutdown _ => true
  | _ => false

/-- The sending side has been shut down. -/
def halfClosed (trace : List Action) : Bool := trace.any Action.isShutdown

/-- `write` is called on an open sending side only. -/
def WriteOpen (before : List Action) (action : Action) : Prop :=
  action.isWrite = true → halfClosed before = false

/-- After the shutdown no write event arrives, and no request is completed that would
be answered by a direct write. -/
def SilentEvent (connection : TcpConnection) : HttpEvent → Prop
  | .read received _ => connection.watched = true → halfClosed connection.trace = true →
      (∃ parsed, Delivers connection received parsed) → connection.idle = false
  | .writable _ => connection.watched = true → halfClosed connection.trace = false

private theorem isShutdown_of_stays {action : Action} (stays : action.endsOutput = false) :
    action.isShutdown = false := by
  cases action with
  | shutdown queued => cases stays
  | _ => rfl

private theorem halfClosed_append {trace more : List Action}
    (stays : ∀ action ∈ more, action.isShutdown = false) :
    halfClosed (trace ++ more) = halfClosed trace := by
  have none : more.any Action.isShutdown = false := by
    rw [List.any_eq_false]
    intro action member
    rw [stays action member]
    exact Bool.false_ne_true
  rw [halfClosed, List.any_append, none, Bool.or_false]
  rfl

/-- Calls other than writes can be added at any time. -/
private theorem writeOpen_append_quiet {trace : List Action} (more : List Action)
    (quiet : ∀ action ∈ more, action.isWrite = false) :
    Orderly WriteOpen (trace ++ more) ↔ Orderly WriteOpen trace := by
  constructor
  · intro orderly
    exact orderly.of_prefix (List.prefix_append _ _)
  · intro orderly
    apply orderly.append_free
    intro action member before writes
    rw [quiet action member] at writes
    cases writes

/-- Calls that shut nothing down can be added when no write among them comes late. -/
private theorem writeOpen_append {trace : List Action} (orderly : Orderly WriteOpen trace)
    (more : List Action) (stays : ∀ action ∈ more, action.isShutdown = false) :
    Orderly WriteOpen (trace ++ more) ↔
      (halfClosed trace = true → ∀ action ∈ more, action.isWrite = false) := by
  constructor
  · intro extended closed action member
    cases writes : action.isWrite with
    | false => rfl
    | true =>
      obtain ⟨before, later, split⟩ := List.append_of_mem member
      have here := extended (trace ++ before) action (by
        rw [split, List.append_assoc]
        exact (List.prefix_append_right_inj trace).mpr ⟨later, by simp⟩)
      have early : ∀ other ∈ before, other.isShutdown = false := by
        intro other inside
        apply stays
        rw [split]
        exact List.mem_append_left _ inside
      have open' := here writes
      rw [halfClosed_append early, closed] at open'
      cases open'
  · intro quiet
    cases closed : halfClosed trace with
    | true => exact (writeOpen_append_quiet more (quiet closed)).mpr orderly
    | false =>
      apply orderly.append
      intro before action start writes
      rw [halfClosed_append, closed]
      intro other inside
      exact stays other (start.subset (List.mem_append_left _ inside))

theorem Handled.writeOpen {input : Buffer} {request : HttpRequest} {parsed : Parsing}
    {sent : TcpConnection} {closes : Bool} (orderly : Orderly WriteOpen connection.trace)
    (handled : Handled { connection with inputBuffer := input } turn request parsed sent closes
      after) :
    Orderly WriteOpen after.trace ↔
      (halfClosed connection.trace = true → connection.idle = false) := by
  obtain ⟨actions, trace, _, sending, quiet⟩ := handled.trace
  have calls := (calls_requests turn parsed.request).2
  have called := (writeOpen_append_quiet (turn.calls parsed.request)
    fun action member => (calls action member).2).mpr orderly
  have last := (closing_quiet closes sent.outputBuffer.contents).2.2
  rw [trace, writeOpen_append_quiet _ last, writeOpen_append called actions
    fun action member => isShutdown_of_stays (sending.stays action member), ← quiet,
    halfClosed_append fun action member => isShutdown_of_stays (calls action member).1]
  exact Iff.rfl

/-- One event keeps writes in front of the shutdown exactly under its condition. -/
theorem writeOpen_step {event : HttpEvent} (valid : connection.outputBuffer.Valid)
    (orderly : Orderly WriteOpen connection.trace)
    (success : httpStep fuel connection event = .ok after) :
    Orderly WriteOpen after.trace ↔ SilentEvent connection event := by
  cases watched : connection.watched with
  | false =>
    rw [httpStep_unwatched watched] at success
    cases success
    cases event <;> simp [SilentEvent, watched, orderly]
  | true =>
    cases event with
    | read received turn =>
      rcases httpStep_read watched success with
        ⟨gone, same⟩ | ⟨input, request, parsed, sent, closes, delivers, handled⟩
      · subst same
        have kept : Orderly WriteOpen (closedConnection connection).trace :=
          (writeOpen_append_quiet _ (by simp [Action.isWrite])).mpr orderly
        refine ⟨fun _ _ _ => ?_, fun _ => kept⟩
        rintro ⟨parsed, bytes, input, request, same, nonempty, _⟩
        rcases gone with none | empty
        · rw [none] at same
          cases same
        · rw [empty] at same
          exact absurd (Option.some.inj same).symm nonempty
      · rw [handled.writeOpen orderly]
        constructor
        · intro busy _ closed _
          exact busy closed
        · intro silent closed
          exact silent watched closed ⟨parsed, delivers⟩
    | writable result =>
      obtain ⟨_, taken, updates, trace, _, stays⟩ := httpStep_writable watched valid success
      rw [trace, writeOpen_append orderly _ fun action member =>
        isShutdown_of_stays (stays action member)]
      constructor
      · intro quiet _
        cases closed : halfClosed connection.trace with
        | false => rfl
        | true =>
          have loud := quiet closed (.write taken) (List.mem_cons_self ..)
          cases loud
      · intro silent closed
        rw [silent watched] at closed
        cases closed

/-- Whatever happens, a step only adds calls and keeps the queue valid. -/
theorem httpStep_extends {event : HttpEvent} (valid : connection.outputBuffer.Valid)
    (success : httpStep fuel connection event = .ok after) :
    connection.trace <+: after.trace ∧ after.outputBuffer.Valid := by
  cases watched : connection.watched with
  | false =>
    rw [httpStep_unwatched watched] at success
    cases success
    exact ⟨List.prefix_refl _, valid⟩
  | true =>
    cases event with
    | read received turn =>
      rcases httpStep_read watched success with
        ⟨_, same⟩ | ⟨input, request, parsed, sent, closes, _, handled⟩
      · subst same
        exact ⟨List.prefix_append _ _, valid⟩
      · obtain ⟨actions, trace, _⟩ := handled.trace
        refine ⟨?_, handled.output valid⟩
        rw [trace, List.append_assoc, List.append_assoc]
        exact List.prefix_append _ _
    | writable result =>
      obtain ⟨kept, taken, updates, trace, _⟩ := httpStep_writable watched valid success
      rw [trace]
      exact ⟨List.prefix_append _ _, kept.output valid⟩

/-- A run never writes behind a shutdown exactly when its events stay silent after it. -/
theorem write_after_shutdown_iff {self eventLoop : Nat} {connectedFd : Int}
    {events : List HttpEvent} {final : TcpConnection}
    (success : run (httpStep fuel) (.established self eventLoop connectedFd) events = .ok final) :
    (∀ before action, before ++ [action] <+: final.trace → action.isWrite = true →
        halfClosed before = false) ↔
      Along (httpStep fuel) SilentEvent (.established self eventLoop connectedFd) events := by
  change Orderly WriteOpen final.trace ↔ _
  apply run_along_iff (fun connection : TcpConnection => connection.outputBuffer.Valid)
    (fun connection : TcpConnection => Orderly WriteOpen connection.trace)
  · intro state event next valid taken
    exact (httpStep_extends valid taken).2
  · intro state event next valid taken orderly
    exact orderly.of_prefix (httpStep_extends valid taken).1
  · intro state event next valid orderly taken
    exact writeOpen_step valid orderly taken
  · exact Buffer.new_valid
  · exact Orderly.nil
  · exact success

end Silent

/-- A request that asks for the connection to be closed. -/
def RequestText.closing : RequestText :=
  { RequestText.sample with headers := [(ascii "Connection", ascii "close")] }

theorem RequestText.closing_wellFormed : RequestText.closing.WellFormed :=
  ⟨by decide, by decide, by decide, by decide, by decide, by decide⟩

theorem RequestText.closing_short : RequestText.closing.Short := ⟨by decide, by decide⟩

/-- A server without a callback, on a socket that answers every write alike. -/
def Turn.answering (result : WriteResult) : Turn :=
  { requestCallback := none, errorWrite := result, responseWrite := result }

@[simp] theorem answering_response (result : WriteResult) (request : HttpRequest) :
    ((Turn.answering result).respond request).2 = .new := rfl

@[simp] theorem answering_write (result : WriteResult) :
    (Turn.answering result).responseWrite = result := rfl

theorem HttpResponse.new_wire_length : HttpResponse.new.wire.length = 58 := by decide

theorem closing_closes (result : WriteResult) :
    ((Turn.answering result).respond RequestText.closing.parsed).1.closeConnection = .ok true := by
  have closes : RequestText.closing.parsed.closeConnection = .ok true := by decide
  exact closes

private theorem closing_asked {result : WriteResult} {request : HttpRequest} {closes : Bool}
    (same : request = RequestText.closing.parsed)
    (decides : ((Turn.answering result).respond request).1.closeConnection = .ok closes) :
    closes = true := by
  rw [same, closing_closes] at decides
  cases decides
  rfl

theorem small_wire (result : WriteResult) (request : HttpRequest) :
    ((Turn.answering result).respond request).2.wire.length < 2 ^ 31 := by
  rw [answering_response, HttpResponse.new_wire_length]
  decide

/-- The first read of a connection brings a request that closes it. -/
theorem established_closing (result : WriteResult) :
    ∃ fuel after, httpStep fuel (.established 0 0 9)
        (.read (some RequestText.closing.render) (.answering result)) = .ok after ∧
      Served (.established 0 0 9) (.answering result) .closing [] after := by
  have arrival : Arrival (.established 0 0 9) RequestText.closing.render .closing [] := by
    refine ⟨by decide, le_capacity _ (by decide), ?_, RequestText.closing_wellFormed,
      RequestText.closing_short⟩
    change Buffer.new.contents ++ _ = _
    rw [Buffer.new_contents, List.nil_append, List.append_nil]
  exact arrival.returns (established_ready 0 0 9)
    (unsent_storable _ (small_wire result _) _) (closing_closes result)

/-- A closing request that is answered by one write. -/
theorem output_drained_closing :
    ∃ fuel final,
      run (httpStep fuel) (.established 0 0 9)
        [.read (some RequestText.closing.render) (.answering (.wrote 58))] = .ok final ∧
      ∀ before action, before ++ [action] <+: final.trace → action.endsOutput = true →
        action.queued = [] ∧ written before = accepted before := by
  obtain ⟨fuel, final, step, _⟩ := established_closing (.wrote 58)
  have success : run (httpStep fuel) (.established 0 0 9)
      [.read (some RequestText.closing.render) (.answering (.wrote 58))] = .ok final :=
    (run_cons step []).trans rfl
  have along : Along (httpStep fuel) DrainingEvent (.established 0 0 9)
      [.read (some RequestText.closing.render) (.answering (.wrote 58))] := by
    refine ⟨fun _ => ⟨?_, ?_, ?_⟩, fun _ _ => trivial⟩
    · intro gone
      rcases gone with none | empty
      · cases none
      · cases Option.some.inj empty
    · intro parsed _
      have short := small_wire (.wrote 58) parsed.request
      exact Nat.lt_of_le_of_lt (length_unsent ..) (Nat.lt_trans short (by decide))
    · intro parsed _ _
      refine ⟨rfl, 58, rfl, ?_⟩
      rw [answering_response, HttpResponse.new_wire_length]
  exact ⟨fuel, final, success, output_drained along success⟩

/-- A socket that takes nothing: the response is queued, and the sending side shut
down all the same. -/
theorem output_abandoned :
    ∃ fuel final queued,
      run (httpStep fuel) (.established 0 0 9)
        [.read (some RequestText.closing.render) (.answering (.failed .wouldBlock))] = .ok final ∧
      Action.shutdown queued ∈ final.trace ∧ queued ≠ [] := by
  obtain ⟨fuel, final, step, served⟩ := established_closing (.failed .wouldBlock)
  obtain ⟨input, parsed, sent, closes, handled, same⟩ := served.handled
  obtain ⟨count, data⟩ := handled.sends
  rw [answering_response, answering_write] at data
  have asked : closes = true := closing_asked same handled.decides
  have nonempty : HttpResponse.new.wire ≠ [] := by
    apply List.ne_nil_of_length_pos
    rw [HttpResponse.new_wire_length]
    decide
  have idle : (TcpConnection.established 0 0 9).idle = true := rfl
  obtain ⟨output, updates, appended, _, stored⟩ := (sendData_blocked _ (by exact idle) nonempty data).stored
  have contents := (Buffer.new_valid.of_append_all
    (Nat.lt_trans (small_wire (.wrote 0) .new) (by decide)) appended).2
  refine ⟨fuel, final, sent.outputBuffer.contents, (run_cons step []).trans rfl, ?_, ?_⟩
  · rw [handled.result, asked]
    exact List.mem_append_right _ (List.mem_singleton_self _)
  · rw [stored]
    change output.contents ≠ []
    rw [contents, Buffer.new_contents, List.nil_append]
    exact nonempty

theorem sample_keeps (result : WriteResult) :
    ((Turn.answering result).respond RequestText.sample.parsed).1.closeConnection = .ok false := by
  have keeps : RequestText.sample.parsed.closeConnection = .ok false := by decide
  exact keeps

/-- A closing request that is answered at once leaves a shut down connection that can
still write. -/
theorem Served.closed {more : Bytes}
    (served : Served (.established 0 0 9) (.answering (.wrote 58)) .closing more after) :
    halfClosed after.trace = true ∧ after.idle = true := by
  obtain ⟨input, parsed, sent, closes, handled, same⟩ := served.handled
  obtain ⟨count, data⟩ := handled.sends
  rw [answering_response, answering_write] at data
  have asked : closes = true := closing_asked same handled.decides
  have idle : (TcpConnection.established 0 0 9).idle = true := rfl
  have all : HttpResponse.new.wire.length ≤ 58 := Nat.le_of_eq HttpResponse.new_wire_length
  have whole := data.symm.trans (sendData_all _ (by exact idle) all)
  obtain ⟨_, written⟩ := Prod.mk.inj (Except.ok.inj whole)
  rw [handled.result, asked, written]
  constructor
  · change halfClosed (_ ++ [.shutdown _]) = true
    rw [halfClosed, List.any_append]
    exact Bool.or_true _
  · exact idle

theorem write_after_shutdown_closing :
    ∃ fuel final,
      run (httpStep fuel) (.established 0 0 9)
        [.read (some RequestText.closing.render) (.answering (.wrote 58))] = .ok final ∧
      ((∀ before action, before ++ [action] <+: final.trace → action.isWrite = true →
          halfClosed before = false) ↔
        Along (httpStep fuel) SilentEvent (.established 0 0 9)
          [.read (some RequestText.closing.render) (.answering (.wrote 58))]) := by
  obtain ⟨fuel, final, step, _⟩ := established_closing (.wrote 58)
  have success := (run_cons step []).trans rfl
  exact ⟨fuel, final, success, write_after_shutdown_iff success⟩

/-- A second request on a connection that was shut down for the first is answered by
a write. -/
theorem write_after_shutdown :
    ∃ fuel final,
      run (httpStep fuel) (.established 0 0 9)
        [.read (some RequestText.closing.render) (.answering (.wrote 58)),
          .read (some RequestText.sample.render) (.answering (.wrote 58))] = .ok final ∧
      ¬ ∀ before action, before ++ [action] <+: final.trace → action.isWrite = true →
        halfClosed before = false := by
  obtain ⟨firstFuel, middle, first, served⟩ := established_closing (.wrote 58)
  have arrival : Arrival middle RequestText.sample.render .sample [] := by
    refine ⟨by decide, le_capacity _ (by decide), ?_, RequestText.sample_wellFormed,
      RequestText.sample_short⟩
    rw [served.contents, List.nil_append, List.append_nil]
  obtain ⟨secondFuel, final, second, later⟩ := arrival.returns served.ready
    (unsent_storable _ (small_wire (.wrote 58) _) _) (sample_keeps (.wrote 58))
  have success := (run_cons (httpStep_mono first (Nat.le_max_left firstFuel secondFuel)) _).trans
    ((run_cons (httpStep_mono second (Nat.le_max_right firstFuel secondFuel)) []).trans rfl)
  refine ⟨_, final, success, ?_⟩
  intro orderly
  obtain ⟨closed, idle⟩ := served.closed
  obtain ⟨input, parsed, sent, closes, handled, _⟩ := later.handled
  have early : Orderly WriteOpen middle.trace :=
    Orderly.of_prefix orderly (httpStep_extends served.ready.output second).1
  have busy := (handled.writeOpen early).mp orderly closed
  rw [idle] at busy
  cases busy

end Yolanda.App
