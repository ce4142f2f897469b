import Yolanda.App.Pipelining
import Yolanda.App.ResponseReader
import Yolanda.App.Rot13Echo
import Yolanda.App.WriteInterest

/-! An HTTP connection and its client, from the bytes the client sends to the responses it
reads. The requests may be cut anywhere, but each read has to bring the rest of one. -/

namespace Yolanda.App

open Foundation TcpConnection

/-- What happens on a connection: a read that completes the request `text`, or a write event
for what is queued. -/
inductive Exchange where
  | answer (bytes : Bytes) (text : RequestText) (turn : Turn)
  | flush (result : WriteResult)

namespace Exchange

def event : Exchange → HttpEvent
  | .answer bytes _ turn => .read (some bytes) turn
  | .flush result => .writable result

def bytes : Exchange → Bytes
  | .answer bytes _ _ => bytes
  | .flush _ => []

/-- The calls of the callback. -/
def requests : Exchange → List HttpRequest
  | .answer _ text turn => App.requests (turn.calls text.parsed)
  | .flush _ => []

def responses : Exchange → List HttpResponse
  | .answer _ text turn => [(turn.respond text.parsed).2]
  | .flush _ => []

/-- The socket takes the whole response in the first call of `write`. -/
def Taken : Exchange → Prop
  | .answer _ text turn => TakenAtOnce (turn.respond text.parsed).2.wire turn.responseWrite
  | .flush _ => True

end Exchange

/-- The server answers the request with a response that a client can read, and keeps the
connection. -/
structure Answerable (text : RequestText) (turn : Turn) : Prop where
  wellFormed : text.WellFormed
  short : text.Short
  encodable : (turn.respond text.parsed).2.Encodable
  small : (turn.respond text.parsed).2.wire.length < 2 ^ 31
  flows : turn.responseWrite.Flows
  keeps : (turn.respond text.parsed).1.closeConnection = .ok false

/-- Exchanges between a connection with unread bytes and one with those that are left. -/
inductive Conversation : Bytes → List Exchange → Bytes → Prop
  | ended (unread : Bytes) : Conversation unread [] unread
  | answer {unread bytes more left : Bytes} {text : RequestText} {turn : Turn}
      {exchanges : List Exchange} (filled : bytes ≠ [])
      (completes : unread ++ bytes = text.render ++ more) (answerable : Answerable text turn)
      (rest : Conversation more exchanges left) :
      Conversation unread (.answer bytes text turn :: exchanges) left
  | flush {unread left : Bytes} {result : WriteResult} {exchanges : List Exchange}
      (flows : result.Flows) (rest : Conversation unread exchanges left) :
      Conversation unread (.flush result :: exchanges) left

/-- No read delivers more than one `readv` can at that moment. -/
def Delivered : TcpConnection → List Exchange → Prop
  | _, [] => True
  | connection, exchange :: exchanges =>
    exchange.bytes.length ≤ connection.inputBuffer.capacity ∧
      ∀ fuel next, httpStep fuel connection exchange.event = .ok next → Delivered next exchanges

/-- The connection between two exchanges. -/
structure Conversing (connection : TcpConnection) (unread : Bytes) : Prop where
  ready : Ready connection
  sound : connection.Sound
  unread : connection.inputBuffer.contents = unread

/-- Nothing is queued, and no call of the connection has reached a loop. -/
structure Calm (connection : TcpConnection) : Prop where
  idle : connection.idle = true
  silent : Local connection.trace

/-- What exchanges add: the responses are accepted for sending, the callback has been called, and
the sending side is still open. No loop is called where the socket takes each response at once. -/
structure Adds (connection after : TcpConnection) (exchanges : List Exchange) : Prop where
  accepted : accepted after.trace = accepted connection.trace ++
    (exchanges.flatMap Exchange.responses).flatMap HttpResponse.wire
  called : requests after.trace = requests connection.trace ++ exchanges.flatMap Exchange.requests
  stays : (∀ action ∈ connection.trace, action.endsOutput = false) →
    ∀ action ∈ after.trace, action.endsOutput = false
  calm : (∀ exchange ∈ exchanges, exchange.Taken) → Calm connection → Calm after

section Steps

variable {connection after : TcpConnection} {unread more : Bytes} {text : RequestText} {turn : Turn}
  {fuel : Nat}

theorem Calm.record {actions : List Action} (calm : Calm connection) (silent : Local actions) :
    Calm (connection.record actions) := by
  refine ⟨calm.idle, ?_⟩
  intro action member
  rcases List.mem_append.mp member with old | new
  · exact calm.silent action old
  · exact silent action new

theorem Adds.refl (connection : TcpConnection) : Adds connection connection [] :=
  ⟨(List.append_nil _).symm, (List.append_nil _).symm, id, fun _ => id⟩

theorem Adds.trans {next : TcpConnection} {first later : List Exchange}
    (adds : Adds connection next first) (addsLater : Adds next after later) :
    Adds connection after (first ++ later) := by
  constructor
  · rw [addsLater.accepted, adds.accepted, List.flatMap_append, List.flatMap_append,
      List.append_assoc]
  · rw [addsLater.called, adds.called, List.flatMap_append, List.append_assoc]
  · exact fun still => addsLater.stays (adds.stays still)
  · intro taken calm
    obtain ⟨takenFirst, takenLater⟩ := List.forall_mem_append.mp taken
    exact addsLater.calm takenLater (adds.calm takenFirst calm)

private theorem calls_unsent (turn : Turn) (request : HttpRequest) :
    written (turn.calls request) = [] ∧ accepted (turn.calls request) = [] := by
  unfold Turn.calls
  cases turn.requestCallback with
  | none => exact ⟨rfl, rfl⟩
  | some callback => exact ⟨rfl, rfl⟩

private theorem calls_local (turn : Turn) (request : HttpRequest) :
    Local (turn.calls request) := by
  unfold Turn.calls
  cases turn.requestCallback with
  | none => exact fun _ member => nomatch member
  | some callback =>
    intro action member
    rw [List.mem_singleton.mp member]
    rfl

/-- The request is answered behind the responses that went before. -/
theorem Served.adds (served : Served connection turn text more after) (sound : connection.Sound)
    (answerable : Answerable text turn) (bytes : Bytes) :
    after.Sound ∧ Adds connection after [.answer bytes text turn] := by
  have called := served.calls.1
  obtain ⟨input, parsed, sent, closes, handled, same⟩ := served.handled
  have keeps : closes = false := by
    have decided := handled.decides
    rw [same, answerable.keeps] at decided
    exact (Except.ok.inj decided).symm
  subst keeps
  have before : ({ connection with
      inputBuffer := parsed.input
      request := some parsed.request }.record (turn.calls parsed.request) :
        TcpConnection).Sound := by
    have recorded := sound.record _ (calls_unsent turn parsed.request)
    exact ⟨recorded.output, recorded.stream⟩
  have short : (connection.unsent (turn.respond parsed.request).2.wire
      turn.responseWrite).length < 2 ^ 32 := by
    have least := connection.length_unsent (turn.respond parsed.request).2.wire turn.responseWrite
    have small := answerable.small
    rw [← same] at small
    omega
  have kept := handled.sentData.sound before short
  obtain ⟨count, sends⟩ := handled.sends
  have taken := sendData_accepted answerable.flows sends
  obtain ⟨actions, _, trace, sending, _⟩ := handled.trace
  have shape : after.trace = sent.trace := by
    rw [handled.result]
    rfl
  refine ⟨?_, ?_, ?_, ?_, ?_⟩
  · rw [handled.result]
    exact ⟨kept.output, kept.stream⟩
  · have recorded : accepted (connection.trace ++ turn.calls parsed.request) =
        accepted connection.trace := by
      rw [accepted_append, (calls_unsent turn parsed.request).2, List.append_nil]
    rw [shape, taken, List.flatMap_singleton, Exchange.responses, List.flatMap_singleton, ← same]
    exact congrArg (· ++ _) recorded
  · rw [called, List.flatMap_singleton]
    rfl
  · intro still action member
    rw [shape, trace] at member
    rcases List.mem_append.mp member with early | last
    · rcases List.mem_append.mp early with old | call
      · exact still action old
      · exact ((calls_requests turn parsed.request).2 action call).1
    · exact sending.stays action last
  · intro takes calm
    have all : TakenAtOnce (turn.respond parsed.request).2.wire turn.responseWrite := by
      rw [same]
      exact takes _ (List.mem_singleton_self _)
    have recorded := calm.record (calls_local turn parsed.request)
    have base : Calm ({ connection with
        inputBuffer := parsed.input
        request := some parsed.request }.record (turn.calls parsed.request)) :=
      ⟨recorded.idle, recorded.silent⟩
    obtain ⟨_, sending, silent, success⟩ := sendData_taken base.idle all
    have still := base.record silent
    rw [← (Prod.mk.inj (Except.ok.inj (sends.symm.trans success))).2] at still
    rw [handled.result]
    exact ⟨still.idle, still.silent⟩

/-- A read that completes a request is answered. -/
theorem Conversing.answer {bytes : Bytes} (conversing : Conversing connection unread)
    (filled : bytes ≠ []) (completes : unread ++ bytes = text.render ++ more)
    (answerable : Answerable text turn) (fits : bytes.length ≤ connection.inputBuffer.capacity) :
    ∃ fuel after, httpStep fuel connection (.read (some bytes) turn) = .ok after ∧
      Conversing after more ∧ Adds connection after [.answer bytes text turn] := by
  have arrival : Arrival connection bytes text more :=
    ⟨filled, fits, conversing.unread.symm ▸ completes, answerable.wellFormed, answerable.short⟩
  obtain ⟨fuel, after, success, served⟩ := arrival.returns conversing.ready
    (unsent_storable _ answerable.small _) answerable.keeps
  obtain ⟨sound, adds⟩ := served.adds conversing.sound answerable bytes
  exact ⟨fuel, after, success, ⟨served.ready, sound, served.contents⟩, adds⟩

/-- A write event changes neither what was accepted nor what is unread. -/
theorem Conversing.flush (conversing : Conversing connection unread) (result : WriteResult) :
    ∃ after, httpStep fuel connection (.writable result) = .ok after ∧
      Conversing after unread ∧ Adds connection after [.flush result] := by
  have watched := conversing.ready.watched
  have output := conversing.ready.output
  obtain ⟨after, success⟩ : ∃ after, httpStep fuel connection (.writable result) = .ok after := by
    simp only [httpStep, watched, ↓reduceIte]
    exact handleWrite_succeeds output httpOnWriteCompleted result fun _ _ _ => ⟨_, rfl⟩
  have sound := conversing.sound.writable watched success
  obtain ⟨kept, taken, updates, trace, quiet, stays⟩ := httpStep_writable watched output success
  have silent : accepted after.trace = accepted connection.trace := by
    rcases httpStep_writable_cases watched output success with same | ⟨taken, rest, _, _, same⟩
    · rw [same, record, accepted_append]
      exact List.append_nil _
    · obtain ⟨updates, trace, shape⟩ :=
        (connection.record [.write taken]).consumeWritten_trace taken.length
      rw [same, trace, accepted_append, record, accepted_append]
      rcases shape with none | one
      · rw [none]
        simp [accepted]
      · rw [one]
        simp [accepted]
  refine ⟨after, success, ⟨⟨?_, ?_, ?_, sound.output⟩, sound, ?_⟩, ?_, ?_, ?_, ?_⟩
  · rw [kept.watched]
    exact watched
  · rw [kept.request]
    exact conversing.ready.request
  · rw [kept.inputBuffer]
    exact conversing.ready.input
  · rw [kept.inputBuffer]
    exact conversing.unread
  · rw [silent]
    exact (List.append_nil _).symm
  · rw [trace, requests_append, quiet]
    rfl
  · intro still action member
    rw [trace] at member
    rcases List.mem_append.mp member with old | new
    · exact still action old
    · exact stays action new
  · intro _ calm
    have empty := idle_contents output calm.idle
    rcases httpStep_writable_cases watched output success with same | ⟨taken, rest, some, parts, _⟩
    · rw [same]
      exact calm.record fun action member => by rw [List.mem_singleton.mp member]; rfl
    · rw [empty] at parts
      exact absurd (List.append_eq_nil_iff.mp parts.symm).1 some

end Steps

variable {connection : TcpConnection} {unread left : Bytes} {exchanges : List Exchange}

/-- A whole conversation goes on to its end and adds all responses in order. -/
theorem Conversation.returns (conversation : Conversation unread exchanges left)
    (conversing : Conversing connection unread) (delivered : Delivered connection exchanges) :
    ∃ fuel final, run (httpStep fuel) connection (exchanges.map Exchange.event) = .ok final ∧
      Conversing final left ∧ Adds connection final exchanges := by
  induction conversation generalizing connection with
  | ended unread => exact ⟨0, connection, rfl, conversing, .refl connection⟩
  | @answer unread bytes more left text turn exchanges filled completes answerable _ ih =>
    obtain ⟨fits, behind⟩ := delivered
    obtain ⟨fuel, next, taken, conversing, adds⟩ :=
      conversing.answer filled completes answerable fits
    obtain ⟨later, final, rest, conversing, addsLater⟩ :=
      ih conversing (behind fuel next taken)
    refine ⟨max fuel later, final, ?_, conversing, adds.trans addsLater⟩
    exact (run_cons (httpStep_mono taken (Nat.le_max_left ..)) _).trans
      (httpRun_mono rest (Nat.le_max_right ..))
  | @flush unread left result exchanges flows _ ih =>
    obtain ⟨_, behind⟩ := delivered
    obtain ⟨next, taken, conversing, adds⟩ := @Conversing.flush _ _ 0 conversing result
    obtain ⟨later, final, rest, conversing, addsLater⟩ := ih conversing (behind 0 next taken)
    refine ⟨later, final, ?_, conversing, adds.trans addsLater⟩
    exact (run_cons (httpStep_mono taken (Nat.zero_le _)) _).trans rest

/-- Every response of a conversation can be read. -/
theorem Conversation.encodable (conversation : Conversation unread exchanges left) :
    ∀ response ∈ exchanges.flatMap Exchange.responses, response.Encodable := by
  induction conversation with
  | ended unread => exact fun _ member => nomatch member
  | answer _ _ answerable _ ih =>
    intro response member
    rw [List.flatMap_cons] at member
    rcases List.mem_append.mp member with first | later
    · rw [List.mem_singleton.mp first]
      exact answerable.encodable
    · exact ih response later
  | flush _ _ ih => exact ih

/-- In a conversation over a new connection the callback is called for each request, and the
client reads, from what was written and what is still queued, the response to each, in order. The
write interest is changed only for a response that the socket does not take at once. -/
theorem conversation_read_back (self eventLoop : Nat) (connectedFd : Int)
    (conversation : Conversation [] exchanges left)
    (delivered : Delivered (.established self eventLoop connectedFd) exchanges) :
    ∃ fuel final received,
      run (httpStep fuel) (.established self eventLoop connectedFd)
        (exchanges.map Exchange.event) = .ok final ∧
      final.inputBuffer.contents = left ∧
      requests final.trace = exchanges.flatMap Exchange.requests ∧
      readResponses (written final.trace ++ final.outputBuffer.contents) = some received ∧
      List.Forall₂ HttpResponse.ReadAs (exchanges.flatMap Exchange.responses) received ∧
      (∀ action ∈ final.trace, action.endsOutput = false) ∧
      ((∀ exchange ∈ exchanges, exchange.Taken) → Local final.trace) := by
  have sound : (TcpConnection.established self eventLoop connectedFd).Sound :=
    ⟨(TcpConnection.new_sound self eventLoop connectedFd).output,
      (TcpConnection.new_sound self eventLoop connectedFd).stream⟩
  have conversing : Conversing (.established self eventLoop connectedFd) [] :=
    ⟨established_ready self eventLoop connectedFd, sound, Buffer.new_contents⟩
  obtain ⟨fuel, final, success, ended, adds⟩ := conversation.returns conversing delivered
  have delimits := fun response member => (conversation.encodable response member).delimits
  have enough := length_le_flatMap fun response member => (delimits response member).1
  refine ⟨fuel, final, (exchanges.flatMap Exchange.responses).map HttpResponse.received, success,
    ended.unread, adds.called, ?_, ?_, adds.stays fun _ member => (nomatch member), ?_⟩
  · rw [ended.sound.stream, adds.accepted]
    exact readAll_flatMap delimits enough
  · rw [List.forall₂_map_right_iff, List.forall₂_same]
    exact fun response _ => response.received_readAs
  · exact fun taken => (adds.calm taken
      ⟨(atRest_new self eventLoop connectedFd).idle, fun _ member => nomatch member⟩).silent

/-- A server that has one page. -/
def Turn.page (result : WriteResult) : Turn :=
  { requestCallback := some fun request _ => (request, HttpResponse.samplePage)
    errorWrite := .wrote 0
    responseWrite := result }

theorem Turn.page_answerable {result : WriteResult} (flows : result.Flows) :
    Answerable .sample (.page result) := by
  have short : HttpResponse.samplePage.wire.length < 2 ^ 31 := by decide
  have keeps : RequestText.sample.parsed.closeConnection = .ok false := by decide
  exact ⟨RequestText.sample_wellFormed, RequestText.sample_short,
    HttpResponse.samplePage_encodable, short, flows, keeps⟩

/-- The second request is cut, the response to the first waits for the socket. -/
theorem conversation_read_back_sample : ∃ fuel final received,
    run (httpStep fuel) (.established 0 0 9)
      [.read (some (RequestText.sample.render ++ RequestText.sample.render.take 20))
        (.page (.failed .wouldBlock)), .writable (.wrote 9),
        .read (some (RequestText.sample.render.drop 20)) (.page (.wrote 5))] = .ok final ∧
      final.inputBuffer.contents = [] ∧
      requests final.trace = [RequestText.sample.parsed, RequestText.sample.parsed] ∧
      readResponses (written final.trace ++ final.outputBuffer.contents) = some received ∧
      List.Forall₂ HttpResponse.ReadAs [.samplePage, .samplePage] received ∧
      (∀ action ∈ final.trace, action.endsOutput = false) ∧
      ((∀ exchange ∈ [Exchange.answer
        (RequestText.sample.render ++ RequestText.sample.render.take 20) .sample
        (.page (.failed .wouldBlock)), .flush (.wrote 9),
        .answer (RequestText.sample.render.drop 20) .sample (.page (.wrote 5))],
          exchange.Taken) → Local final.trace) := by
  have conversation : Conversation []
      [.answer (RequestText.sample.render ++ RequestText.sample.render.take 20) .sample
        (.page (.failed .wouldBlock)), .flush (.wrote 9),
        .answer (RequestText.sample.render.drop 20) .sample (.page (.wrote 5))] [] := by
    refine .answer (by decide) rfl (Turn.page_answerable rfl)
      (.flush trivial (.answer (by decide) ?_ (Turn.page_answerable trivial) (.ended [])))
    rw [List.take_append_drop, List.append_nil]
  have first : (RequestText.sample.render ++ RequestText.sample.render.take 20).length ≤
      initBufferSize := by
    rw [List.length_append, List.length_take, sample_render_length]
    decide
  have last : (RequestText.sample.render.drop 20).length ≤ initBufferSize := by
    rw [List.length_drop, sample_render_length]
    decide
  have read := conversation_read_back 0 0 9 conversation
    ⟨le_capacity _ first, fun _ _ _ => ⟨Nat.zero_le _, fun _ _ _ =>
      ⟨le_capacity _ last, fun _ _ _ => trivial⟩⟩⟩
  exact read

end Yolanda.App
