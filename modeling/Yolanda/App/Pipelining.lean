import Yolanda.App.HalfClose

/-! Requests that arrive in groups. One read event is one call of `http_onMessage`,
and one call handles one request, however many have arrived. -/

namespace Yolanda.App

open Foundation TcpConnection

/-- A read that carries whole requests, with what its handler meets. -/
structure Delivery where
  texts : List RequestText
  callback : RequestCallback
  errorWrite : WriteResult
  responseWrite : WriteResult

namespace Delivery

def turn (delivery : Delivery) : Turn :=
  { requestCallback := some delivery.callback
    errorWrite := delivery.errorWrite
    responseWrite := delivery.responseWrite }

def bytes (delivery : Delivery) : Bytes := delivery.texts.flatMap RequestText.render

def event (delivery : Delivery) : HttpEvent := .read (some delivery.bytes) delivery.turn

/-- The requests as the parser gives them. -/
def dispatched (delivery : Delivery) : List HttpRequest := delivery.texts.map RequestText.parsed

/-- The encoded responses to the requests. -/
def responses (delivery : Delivery) : List Bytes :=
  delivery.texts.map fun text => (delivery.turn.respond text.parsed).2.wire

/-- `close_connection` is defined on the request as the callback leaves it: it is not an
`HTTP/1.0` request without a `Connection` header. -/
def Decided (delivery : Delivery) (text : RequestText) : Prop :=
  ¬ ((delivery.turn.respond text.parsed).1.version = http10 ∧
    (delivery.turn.respond text.parsed).1.headers.lookup (ascii "Connection") = none)

end Delivery

/-- After each read, the callback has been called once for each request received so
far, in order, and one encoded response for each has been handed to `send_data`. -/
def Answered (start : TcpConnection) (deliveries : List Delivery) : Prop :=
  ∀ first, first <+: deliveries → ∃ fuel state,
    run (httpStep fuel) start (first.map Delivery.event) = .ok state ∧
    requests state.trace = requests start.trace ++ first.flatMap Delivery.dispatched ∧
    sends state.trace = sends start.trace ++ first.flatMap Delivery.responses

/-- Each read delivers no more than one `readv` can at that moment. -/
def Receivable : TcpConnection → List Delivery → Prop
  | _, [] => True
  | connection, delivery :: deliveries =>
    delivery.bytes.length ≤ connection.inputBuffer.capacity ∧
      ∀ fuel next, httpStep fuel connection delivery.event = .ok next → Receivable next deliveries

/-- The read carries one request alone, `close_connection` is defined on it, and what a
direct write leaves of the response can be stored. -/
def AnsweredAlone (connection : TcpConnection) (delivery : Delivery) : Prop :=
  ∃ text, delivery.texts = [text] ∧ delivery.Decided text ∧ Storable
    (connection.unsent (delivery.turn.respond text.parsed).2.wire delivery.responseWrite)

/-- Each read is such a read for the connection that it finds. -/
def OneByOne : TcpConnection → List Delivery → Prop
  | _, [] => True
  | connection, delivery :: deliveries =>
    AnsweredAlone connection delivery ∧
      ∀ fuel next, httpStep fuel connection delivery.event = .ok next → OneByOne next deliveries

variable {connection after : TcpConnection} {turn : Turn} {fuel : Nat}

/-- The calls made for one request. -/
theorem Served.calls {text : RequestText} {more : Bytes}
    (served : Served connection turn text more after) :
    requests after.trace = requests connection.trace ++ requests (turn.calls text.parsed) ∧
      sends after.trace = sends connection.trace ++ [(turn.respond text.parsed).2.wire] := by
  obtain ⟨input, parsed, sent, closes, handled, same⟩ := served.handled
  obtain ⟨actions, trace, _, sending, _⟩ := handled.trace
  rw [same] at trace sending
  have last := closing_quiet closes sent.outputBuffer.contents
  constructor
  · rw [trace, requests_append, requests_append, requests_append, sending.requests, last.1,
      List.append_nil, List.append_nil]
  · rw [trace, sends_append, sends_append, sends_append, sending.sends, last.2.1,
      (calls_requests turn text.parsed).1, List.append_nil, List.append_nil]

theorem httpStep_unique {more : Nat} {event : HttpEvent} {state : TcpConnection}
    (first : httpStep fuel connection event = .ok after)
    (second : httpStep more connection event = .ok state) : after = state := by
  have left := httpStep_mono first (Nat.le_max_left fuel more)
  have right := httpStep_mono second (Nat.le_max_right fuel more)
  exact Except.ok.inj (left.symm.trans right)

section Group

variable {delivery : Delivery} {text : RequestText} {others : List RequestText}

/-- A read that carries requests starts with the first of them. -/
theorem Delivery.arrival (delivery : Delivery) (carries : delivery.texts = text :: others)
    (wellFormed : text.WellFormed) (empty : connection.inputBuffer.contents = [])
    (fits : delivery.bytes.length ≤ connection.inputBuffer.capacity) :
    Arrival connection delivery.bytes text (others.flatMap RequestText.render) := by
  have shape : delivery.bytes = text.render ++ others.flatMap RequestText.render := by
    rw [Delivery.bytes, carries, List.flatMap_cons]
  have size : text.render.length ≤ delivery.bytes.length := by
    rw [shape, List.length_append]
    exact Nat.le_add_right ..
  have positive : 0 < text.render.length := by
    simp only [RequestText.render, List.length_append, crlf, List.length_cons]
    omega
  have bounded : connection.inputBuffer.capacity < 2 ^ 31 :=
    Nat.lt_of_le_of_lt (Nat.min_le_right ..) (by decide)
  refine ⟨?_, fits, ?_, wellFormed, short_of_length (by omega)⟩
  · apply List.ne_nil_of_length_pos
    omega
  · rw [empty, shape, List.nil_append]

end Group

/-- Reads of one request each are answered one by one. -/
theorem answered_of_oneByOne {deliveries : List Delivery} (ready : Ready connection)
    (empty : connection.inputBuffer.contents = [])
    (wellFormed : ∀ delivery ∈ deliveries, ∀ text ∈ delivery.texts, text.WellFormed)
    (receivable : Receivable connection deliveries) (alone : OneByOne connection deliveries) :
    Answered connection deliveries := by
  induction deliveries generalizing connection with
  | nil =>
    intro first start
    rw [List.prefix_nil.mp start]
    exact ⟨0, connection, rfl, (List.append_nil _).symm, (List.append_nil _).symm⟩
  | cons delivery deliveries ih =>
    obtain ⟨⟨text, carries, decided, storable⟩, others⟩ := alone
    have well : text.WellFormed := wellFormed delivery (List.mem_cons_self ..) text (by
      rw [carries]
      exact List.mem_singleton_self _)
    obtain ⟨closes, decides⟩ := (HttpRequest.closeConnection_defined _).mpr decided
    have arrival := delivery.arrival carries well empty receivable.1
    obtain ⟨firstFuel, next, step, served⟩ := arrival.returns ready storable decides
    have answered := ih served.ready served.contents
      (fun other member => wellFormed other (List.mem_cons_of_mem _ member))
      (receivable.2 firstFuel next step) (others firstFuel next step)
    intro first start
    cases first with
    | nil => exact ⟨0, connection, rfl, (List.append_nil _).symm, (List.append_nil _).symm⟩
    | cons head first =>
      obtain ⟨same, behind⟩ := List.cons_prefix_cons.mp start
      subst head
      obtain ⟨restFuel, state, rest, dispatched, responded⟩ := answered first behind
      obtain ⟨called, sent⟩ := served.calls
      refine ⟨max firstFuel restFuel, state, ?_, ?_, ?_⟩
      · exact (run_cons (httpStep_mono step (Nat.le_max_left ..)) _).trans
          (httpRun_mono rest (Nat.le_max_right ..))
      · rw [dispatched, called, List.flatMap_cons, Delivery.dispatched, carries, List.append_assoc]
        rfl
      · rw [responded, sent, List.flatMap_cons, Delivery.responses, carries, List.append_assoc]
        rfl

/-- When the first of the reads has been answered the others still are. -/
theorem Answered.behind {delivery : Delivery} {deliveries : List Delivery} {text : RequestText}
    (answered : Answered connection (delivery :: deliveries)) (carries : delivery.texts = [text])
    (served : Served connection delivery.turn text [] next)
    (step : httpStep fuel connection delivery.event = .ok next) : Answered next deliveries := by
  intro first start
  obtain ⟨more, state, taken, called, sent⟩ :=
    answered (delivery :: first) (List.cons_prefix_cons.mpr ⟨rfl, start⟩)
  obtain ⟨other, again, rest⟩ := run_cons_ok.mp taken
  have same := httpStep_unique step again
  subst other
  refine ⟨more, state, rest, ?_, ?_⟩
  · rw [called, served.calls.1, List.flatMap_cons, Delivery.dispatched, carries, List.append_assoc]
    rfl
  · rw [sent, served.calls.2, List.flatMap_cons, Delivery.responses, carries, List.append_assoc]
    rfl

/-- A read that is answered carries one request, and its response was sent. -/
theorem alone_of_served {delivery : Delivery} {text : RequestText} {others : List RequestText}
    (ready : Ready connection) (shape : delivery.texts = text :: others)
    (served : Served connection delivery.turn text (others.flatMap RequestText.render) after)
    (dispatched : requests after.trace = requests connection.trace ++ delivery.dispatched) :
    AnsweredAlone connection delivery := by
  have alone : others = [] := by
    rw [served.calls.1, Delivery.dispatched, shape] at dispatched
    have counts := congrArg List.length (List.append_cancel_left dispatched)
    cases others with
    | nil => rfl
    | cons other others => simp [Delivery.turn, Turn.calls, requests] at counts
  subst alone
  obtain ⟨input, parsed, sent, closes, handled, same⟩ := served.handled
  refine ⟨text, shape, (HttpRequest.closeConnection_defined _).mp ⟨closes, ?_⟩, ?_⟩
  · rw [← same]
    exact handled.decides
  · rw [← same]
    exact handled.storable ready.output

/-- Reads that are answered carry one request each. -/
theorem oneByOne_of_answered {deliveries : List Delivery} (ready : Ready connection)
    (empty : connection.inputBuffer.contents = [])
    (carries : ∀ delivery ∈ deliveries, delivery.texts ≠ [])
    (wellFormed : ∀ delivery ∈ deliveries, ∀ text ∈ delivery.texts, text.WellFormed)
    (receivable : Receivable connection deliveries) (answered : Answered connection deliveries) :
    OneByOne connection deliveries := by
  induction deliveries generalizing connection with
  | nil => trivial
  | cons delivery deliveries ih =>
    obtain ⟨text, others, shape⟩ :=
      List.exists_cons_of_ne_nil (carries delivery (List.mem_cons_self ..))
    have well : text.WellFormed := wellFormed delivery (List.mem_cons_self ..) text (by
      rw [shape]
      exact List.mem_cons_self ..)
    have arrival := delivery.arrival shape well empty receivable.1
    obtain ⟨fuel, next, success, dispatched, _⟩ := answered [delivery] (List.prefix_append _ _)
    obtain ⟨state, step, last⟩ := run_cons_ok.mp success
    cases last
    rw [List.flatMap_singleton] at dispatched
    have served := arrival.served ready step
    have alone := alone_of_served ready shape served dispatched
    refine ⟨alone, ?_⟩
    intro more state again
    cases httpStep_unique step again
    obtain ⟨only, single, _⟩ := alone
    rw [shape] at single
    obtain ⟨same, none⟩ := List.cons.inj single
    subst none
    exact ih served.ready served.contents
      (fun other member => carries other (List.mem_cons_of_mem _ member))
      (fun other member => wellFormed other (List.mem_cons_of_mem _ member))
      (receivable.2 fuel next step) (answered.behind shape served step)

/-- All requests are answered exactly when every read carries one request whose answer is
defined and can be sent. -/
theorem answered_iff {self eventLoop : Nat} {connectedFd : Int} {deliveries : List Delivery}
    (carries : ∀ delivery ∈ deliveries, delivery.texts ≠ [])
    (wellFormed : ∀ delivery ∈ deliveries, ∀ text ∈ delivery.texts, text.WellFormed)
    (receivable : Receivable (.established self eventLoop connectedFd) deliveries) :
    Answered (.established self eventLoop connectedFd) deliveries ↔
      OneByOne (.established self eventLoop connectedFd) deliveries := by
  have ready := established_ready self eventLoop connectedFd
  have empty : (TcpConnection.established self eventLoop connectedFd).inputBuffer.contents = [] :=
    Buffer.new_contents
  constructor
  · exact oneByOne_of_answered ready empty carries wellFormed receivable
  · exact answered_of_oneByOne ready empty wellFormed receivable

/-- A delivery to a server that leaves every response empty. -/
def Delivery.plain (texts : List RequestText) : Delivery :=
  { texts
    callback := fun request response => (request, response)
    errorWrite := .wrote 58
    responseWrite := .wrote 58 }

theorem Delivery.plain_receivable {texts : List RequestText}
    (fits : (Delivery.plain texts).bytes.length ≤ initBufferSize) (connection : TcpConnection) :
    Receivable connection [Delivery.plain texts] :=
  ⟨le_capacity _ fits, fun _ _ _ => trivial⟩

theorem answered_sample : Answered (.established 0 0 9) [Delivery.plain [.sample]] := by
  refine (answered_iff ?_ ?_ (Delivery.plain_receivable (by decide) _)).mpr ?_
  · intro delivery member
    rw [List.mem_singleton.mp member]
    exact List.cons_ne_nil _ _
  · intro delivery member text inside
    rw [List.mem_singleton.mp member] at inside
    rw [List.mem_singleton.mp inside]
    exact RequestText.sample_wellFormed
  · refine ⟨⟨.sample, rfl, ?_, ?_⟩, fun _ _ _ => trivial⟩
    · intro old
      exact absurd old.1 (by decide)
    · apply unsent_storable
      change HttpResponse.new.wire.length < 2 ^ 31
      rw [HttpResponse.new_wire_length]
      decide

theorem sample_render_length : RequestText.sample.render.length = 79 := by decide

/-- Two requests in one read: only the first is dispatched. -/
theorem pipelined_unanswered :
    RequestText.sample.WellFormed ∧
      Receivable (.established 0 0 9) [Delivery.plain [.sample, .sample]] ∧
      ¬ Answered (.established 0 0 9) [Delivery.plain [.sample, .sample]] := by
  have fits : (Delivery.plain [.sample, .sample]).bytes.length ≤ initBufferSize := by
    change (RequestText.sample.render ++ (RequestText.sample.render ++ [])).length ≤ _
    rw [List.length_append, List.length_append, sample_render_length]
    decide
  have receivable := Delivery.plain_receivable fits (.established 0 0 9)
  refine ⟨RequestText.sample_wellFormed, receivable, ?_⟩
  intro answered
  have carries : ∀ delivery ∈ [Delivery.plain [.sample, .sample]], delivery.texts ≠ [] := by
    intro delivery member
    rw [List.mem_singleton.mp member]
    exact List.cons_ne_nil _ _
  have wellFormed : ∀ delivery ∈ [Delivery.plain [.sample, .sample]],
      ∀ text ∈ delivery.texts, text.WellFormed := by
    intro delivery member text inside
    rw [List.mem_singleton.mp member] at inside
    have same : text = .sample := by simpa [Delivery.plain] using inside
    rw [same]
    exact RequestText.sample_wellFormed
  obtain ⟨⟨text, alone, _⟩, _⟩ := oneByOne_of_answered (established_ready 0 0 9)
    Buffer.new_contents carries wellFormed receivable answered
  have counts := congrArg List.length alone
  cases counts

end Yolanda.App
