import Yolanda.App.Pipelining
import Yolanda.App.WriteInterest
import Yolanda.Lib.HttpServer
import Yolanda.Lib.KeepAlive

/-! A conversation over an HTTP connection of the C library, as far as the buffers stay in the
range of an `int` and no direct write fails. -/

namespace Yolanda.Lib

open Foundation
open App (HttpRequestState Headers RequestText TakenAtOnce WriteResult accepted written crlf colonSpace
  space)
open App.TcpConnection (Local)
open App.RequestText (HeaderWellFormed headerLine)

section Parse

variable {parsing : Parsing} {other : App.HttpRequest} {before lines : List (Bytes × Bytes)}
  {rest : Bytes}

/-- The readable bytes begin with a line. -/
theorem contents_line {text : Bytes} (contents : parsing.input.contents = text ++ crlf ++ rest)
    (clear : ¬ crlf <:+: text) :
    search crlf parsing.input.contents = some text.length ∧
      parsing.input.contents.take text.length = text := by
  constructor
  · rw [contents]
    exact search_append App.crlf_borderless clear rest
  · rw [contents, List.append_assoc, List.take_left]

/-- What is behind the line and its end. -/
theorem contents_behind {text : Bytes} (valid : parsing.input.Valid)
    (contents : parsing.input.contents = text ++ crlf ++ rest) :
    ({ parsing.input with readIndex := parsing.input.readIndex + text.length + 2 } :
        Buffer).Valid ∧
      ({ parsing.input with readIndex := parsing.input.readIndex + text.length + 2 } :
        Buffer).contents = rest := by
  have inside : text.length + 2 ≤ parsing.input.contents.length := by
    rw [contents]
    simp [crlf]
  obtain ⟨kept, behind⟩ := valid.advance inside
  have place : parsing.input.readIndex + ((text.length + 2 : Nat) : Int) =
      parsing.input.readIndex + text.length + 2 := by omega
  have size : text.length + 2 = (text ++ crlf).length := by simp [crlf]
  rw [place] at kept behind
  rw [contents, size, List.drop_left] at behind
  exact ⟨kept, behind⟩

theorem parseLoop_step {next : Parsing} (running : parsing.request.currentState ≠ .done)
    (body : parsing.parseIteration = .ok next) : parseLoop.Step parsing next := by
  refine ⟨decide_eq_false running, ?_⟩
  simp only [parseLoop, body]
  rfl

/-- A state from which the parser goes on with the bytes behind a line. -/
structure Behind (rest : Bytes) (lines : List (Bytes × Bytes)) (other : App.HttpRequest)
    (parsing : Parsing) : Prop where
  valid : parsing.input.Valid
  contents : parsing.input.contents = rest
  same : SameRequest lines parsing.request other

theorem step_statusLine {text : RequestText} (wellFormed : text.WellFormed)
    (at_line : Behind (text.statusLine ++ crlf ++ rest) [] .new parsing) :
    ∃ next, parseLoop.Step parsing next ∧
      Behind rest [] { App.HttpRequest.new.withLine text.method text.url text.version with
        curState := .headers } next := by
  have status : parsing.request.currentState = .status := at_line.same.state
  obtain ⟨found, line⟩ := contents_line at_line.contents wellFormed.line_clear
  obtain ⟨kept, behind⟩ := contents_behind at_line.valid at_line.contents
  have method : search space text.statusLine = some text.method.length := by
    have split := search_append App.space_borderless wellFormed.method_space
      (text.url ++ space ++ text.version)
    simpa only [RequestText.statusLine, List.append_assoc] using split
  have behindMethod : text.statusLine.drop (text.method.length + 1) =
      text.url ++ space ++ text.version := by
    have size : text.method.length + 1 = (text.method ++ space).length := by simp [space]
    rw [size, RequestText.statusLine, List.append_assoc, List.append_assoc, List.drop_left,
      List.append_assoc]
  have url : search space (text.statusLine.drop (text.method.length + 1)) =
      some text.url.length := by
    rw [behindMethod]
    exact search_append App.space_borderless wellFormed.url_space text.version
  have body := Parsing.parseIteration_status at_line.valid status found (by rw [line, method])
    (by rw [line, url])
  have same := at_line.same.withLine rfl text.statusLine text.method.length text.url.length
  have first : text.statusLine.take text.method.length = text.method := by
    rw [RequestText.statusLine, List.append_assoc, List.append_assoc, List.append_assoc,
      List.take_left]
  have last : (text.url ++ space ++ text.version).drop (text.url.length + 1) = text.version := by
    have size : text.url.length + 1 = (text.url ++ space).length := by simp [space]
    rw [size, List.drop_left]
  rw [behindMethod, first, last, List.append_assoc, List.take_left] at same
  rw [line] at body
  exact ⟨_, parseLoop_step (by simp [status]) body, kept, behind, same⟩

/-- A header line goes to the table. -/
theorem step_headerLine {line : Bytes × Bytes} (wellFormed : HeaderWellFormed line)
    (waiting : other.curState = .headers)
    (at_line : Behind (headerLine line ++ crlf ++ rest) lines other parsing) :
    ∃ next, parseLoop.Step parsing next ∧
      Behind rest (lines ++ [line]) { other with
        headers := other.headers.emplace line.1 line.2 } next := by
  have headers : parsing.request.currentState = .headers := at_line.same.state.trans waiting
  obtain ⟨found, first⟩ := contents_line at_line.contents wellFormed.line_clear
  obtain ⟨kept, behind⟩ := contents_behind at_line.valid at_line.contents
  have parted : search colonSpace (parsing.input.contents.take (headerLine line).length) =
      some line.1.length := by
    rw [first]
    exact wellFormed.search_colon
  have body := Parsing.parseIteration_header at_line.valid headers found parted
  rw [first, Parsing.headerOf, App.RequestText.headerLine_key,
    App.RequestText.headerLine_value] at body
  exact ⟨_, parseLoop_step (by simp [headers]) body, kept, behind,
    at_line.same.addHeader waiting line⟩

/-- The empty line ends the request. -/
theorem step_emptyLine (waiting : other.curState = .headers)
    (at_line : Behind (crlf ++ rest) lines other parsing) :
    ∃ next, parseLoop.Step parsing next ∧
      Behind rest lines { other with curState := .done } next := by
  have headers : parsing.request.currentState = .headers := at_line.same.state.trans waiting
  have contents : parsing.input.contents = [] ++ crlf ++ rest := at_line.contents
  obtain ⟨found, first⟩ := contents_line contents (by decide)
  obtain ⟨kept, behind⟩ := contents_behind at_line.valid contents
  have body := Parsing.parseIteration_last at_line.valid headers found (by rw [first]; decide)
  have started : other.curState ≠ .status := by
    rw [waiting]
    decide
  have same := at_line.same
  have place : parsing.input.readIndex + (([] : Bytes).length : Int) + 2 =
      parsing.input.readIndex + 2 := by simp
  rw [place] at kept behind
  exact ⟨_, parseLoop_step (by simp [headers]) body, kept, behind, rfl,
    fun waits => (nomatch waits), fun _ => same.method started, fun _ => same.url started,
    fun _ => same.version started, same.headers, same.number, same.capacity, same.entries⟩

/-- The lines of the header block go to the table one by one. -/
theorem parse_lines (block : List (Bytes × Bytes)) {parsing : Parsing} {other : App.HttpRequest}
    {lines : List (Bytes × Bytes)} (wellFormed : ∀ line ∈ block, HeaderWellFormed line)
    (waiting : other.curState = .headers)
    (at_line : Behind (block.flatMap (fun line => headerLine line ++ crlf) ++ crlf ++ rest) lines
      other parsing) :
    ∃ final, parseLoop.Returns parsing final ∧
      Behind rest (lines ++ block) { other with
        headers := other.headers.addAll block
        curState := .done } final := by
  induction block generalizing parsing other lines with
  | nil =>
    obtain ⟨final, step, last⟩ := step_emptyLine waiting at_line
    refine ⟨final, .of_step step ⟨0, Loop.run_done ?_ 0⟩, ?_⟩
    · simp [parseLoop, last.same.state]
    · rw [List.append_nil]
      exact last
  | cons line block ih =>
    have shape : Behind (headerLine line ++ crlf ++
        (block.flatMap (fun line => headerLine line ++ crlf) ++ crlf ++ rest)) lines other
          parsing := by
      simpa only [List.flatMap_cons, List.append_assoc] using at_line
    obtain ⟨next, step, behind⟩ :=
      step_headerLine (wellFormed line (List.mem_cons_self ..)) waiting shape
    obtain ⟨final, returns, last⟩ :=
      ih (fun other member => wellFormed other (List.mem_cons_of_mem _ member)) (by exact waiting)
        behind
    refine ⟨final, .of_step step returns, ?_⟩
    rw [List.append_assoc] at last
    exact last

/-- A request that stands in front of the readable bytes is parsed, and nothing behind it. -/
theorem parse_render {text : RequestText} (wellFormed : text.WellFormed)
    (at_line : Behind (text.render ++ rest) [] .new parsing) :
    ∃ final, parseLoop.Returns parsing final ∧ Behind rest text.headers text.parsed final := by
  have shape : Behind (text.statusLine ++ crlf ++
      (text.headers.flatMap (fun line => headerLine line ++ crlf) ++ crlf ++ rest)) [] .new
        parsing := by
    simpa only [RequestText.render, List.append_assoc] using at_line
  obtain ⟨next, step, behind⟩ := step_statusLine wellFormed shape
  obtain ⟨final, returns, last⟩ := parse_lines text.headers wellFormed.headers rfl behind
  have fields : ({ App.HttpRequest.new.withLine text.method text.url text.version with
      headers := Headers.addAll ∅ text.headers, curState := .done } : App.HttpRequest) =
      text.parsed := by
    simp [App.HttpRequest.withLine, App.HttpRequest.new, RequestText.parsed]
  rw [← fields]
  exact ⟨final, .of_step step returns, last⟩

end Parse

/-- A call adds actions to the trace by which these bytes are accepted for sending, and none of them
ends the output. -/
def Sends (connection after : TcpConnection) (bytes : Bytes) : Prop :=
  ∃ actions, after.trace = connection.trace ++ actions ∧ accepted actions = bytes ∧
    ∀ action ∈ actions, action.endsOutput = false

/-- Nothing is queued, and no call of the connection has reached a loop. -/
structure Calm (connection : TcpConnection) : Prop where
  idle : Idle connection
  silent : Local connection.trace

section Output

variable {connection after : TcpConnection} {data : Pointer} {size sent : Int} {memory : Bool}
  {result : WriteResult}

theorem Sends.trans {middle : TcpConnection} {first second : Bytes}
    (sends : Sends connection middle first) (more : Sends middle after second) :
    Sends connection after (first ++ second) := by
  obtain ⟨actions, trace, taken, stays⟩ := sends
  obtain ⟨others, later, also, still⟩ := more
  refine ⟨actions ++ others, ?_, ?_, ?_⟩
  · rw [later, trace, List.append_assoc]
  · rw [App.accepted_append, taken, also]
  · intro action member
    rcases List.mem_append.mp member with old | new
    · exact stays action old
    · exact still action new

theorem sends_record (connection : TcpConnection) (actions : List App.Action)
    (still : ∀ action ∈ actions, action.endsOutput = false) :
    Sends connection (connection.record actions) (accepted actions) :=
  ⟨actions, rfl, rfl, still⟩

theorem sends_nothing {updates : List App.Action}
    (trace : after.trace = connection.trace ++ updates)
    (shape : updates = [] ∨ ∃ target, updates = [.update target]) :
    Sends connection after [] := by
  rcases shape with rfl | ⟨target, rfl⟩
  · exact ⟨[], trace, rfl, nofun⟩
  · refine ⟨_, trace, rfl, ?_⟩
    intro action member
    rw [List.mem_singleton.mp member]
    rfl

theorem queueRest_sends {nleft : Nat}
    (success : connection.queueRest data nleft memory = .ok after) : Sends connection after [] := by
  unfold TcpConnection.queueRest at success
  split at success
  case isTrue =>
    obtain ⟨output, _, rest⟩ := bind_eq_ok.mp success
    cases enabled : connection.chan.writeEventIsEnabled with
    | true =>
      simp only [enabled, if_true] at rest
      cases rest
      exact sends_nothing (List.append_nil _).symm (.inl rfl)
    | false =>
      simp only [enabled] at rest
      cases rest
      exact sends_nothing rfl (.inr ⟨_, rfl⟩)
  case isFalse =>
    cases success
    exact sends_nothing (List.append_nil _).symm (.inl rfl)

/-- A send whose direct write, if it makes one, does not fail is accepted. -/
theorem sendData_sends (valid : connection.outputBuffer.Valid) (holds : data.Holds size)
    (well : SendGoesWell connection size.toNat result)
    (success : connection.sendData data size result true = .ok (sent, after)) :
    Sends connection after (data.bytes size) := by
  by_cases idle : Idle connection
  · obtain ⟨count, rfl, _⟩ := well.direct idle
    rw [sendData_wrote valid holds idle] at success
    obtain ⟨queued, rest, same⟩ := bind_eq_ok.mp success
    obtain ⟨_, rfl⟩ := Prod.mk.inj (Except.ok.inj same)
    have both := (sends_record connection [.write ((data.bytes size).take count),
      .send (data.bytes size) false] (by simp [App.Action.endsOutput])).trans (queueRest_sends rest)
    have taken : accepted [.write ((data.bytes size).take count), .send (data.bytes size) false] =
        data.bytes size := by simp [accepted]
    rwa [taken, List.append_nil] at both
  · rw [sendData_busy valid holds idle] at success
    obtain ⟨queued, rest, same⟩ := bind_eq_ok.mp success
    cases same
    have both := (sends_record connection [.send (data.bytes size) false]
      (by simp [App.Action.endsOutput])).trans (queueRest_sends rest)
    have taken : accepted [.send (data.bytes size) false] = data.bytes size := by simp [accepted]
    rwa [taken, List.append_nil] at both

theorem Calm.record {actions : List App.Action} (calm : Calm connection) (silent : Local actions) :
    Calm (connection.record actions) := by
  refine ⟨⟨calm.idle.off, calm.idle.empty⟩, ?_⟩
  intro action member
  rcases List.mem_append.mp member with old | new
  · exact calm.silent action old
  · exact silent action new

/-- Nothing is left to queue when the socket takes all in the first call of `write`. -/
theorem sendData_calm (valid : connection.outputBuffer.Valid) (holds : data.Holds size)
    (well : SendGoesWell connection size.toNat result) (calm : Calm connection)
    (taken : TakenAtOnce (data.bytes size) result)
    (success : connection.sendData data size result true = .ok (sent, after)) : Calm after := by
  obtain ⟨count, rfl, _⟩ := well.direct calm.idle
  have whole : size.toNat ≤ count := by
    have all : (data.bytes size).length ≤ count := taken
    rwa [holds.length] at all
  have none : size.toNat - min count size.toNat = 0 := by omega
  rw [sendData_wrote valid holds calm.idle, none] at success
  obtain ⟨queued, rest, same⟩ := bind_eq_ok.mp success
  obtain ⟨_, rfl⟩ := Prod.mk.inj (Except.ok.inj same)
  cases rest
  apply calm.record
  intro action member
  rcases List.mem_cons.mp member with write | send
  · rw [write]
    rfl
  · rw [List.mem_singleton.mp send]
    rfl

/-- A buffer whose bytes find room is sent as a whole. -/
theorem sendBuffer_sends {buffer : Buffer} (sound : StreamSound connection) (valid : buffer.Valid)
    (well : SendGoesWell connection buffer.contents.length result) :
    ∃ sent after drained, connection.sendBuffer buffer result true = .ok (sent, after, drained) ∧
      StreamSound after ∧ Sends connection after buffer.contents ∧
      (TakenAtOnce buffer.contents result → Calm connection → Calm after) := by
  have number : (buffer.contents.length : Int).toNat = buffer.contents.length := Int.toNat_natCast _
  have goes : SendGoesWell connection (buffer.contents.length : Int).toNat result := by
    rwa [number]
  obtain ⟨sent, after, success, kept⟩ := sound.sendData valid.holds goes
  have sends := sendData_sends sound.output valid.holds goes success
  have still (taken : TakenAtOnce buffer.contents result) (calm : Calm connection) : Calm after :=
    sendData_calm sound.output valid.holds goes calm (by rwa [valid.bytes]) success
  rw [valid.bytes] at sends
  have width := valid.length_contents
  have last : intResult (buffer.readIndex + buffer.contents.length) =
      .ok (buffer.readIndex + buffer.contents.length) := by
    have small := valid.small
    have stored := valid.stored
    have start := valid.start
    exact intResult_eq (by omega) (by omega)
  refine ⟨sent, after, { buffer with readIndex := buffer.readIndex + buffer.contents.length }, ?_,
    kept, sends, still⟩
  simp only [TcpConnection.sendBuffer, valid.readableSize, ok_bind, success, last]
  rfl

/-- A write event accepts nothing. -/
theorem handleWrite_sends (success : connection.handleWrite result = .ok after) :
    Sends connection after [] := by
  unfold TcpConnection.handleWrite at success
  obtain ⟨readable, _, rest⟩ := bind_eq_ok.mp success
  obtain ⟨queued, _, rest⟩ := bind_eq_ok.mp rest
  have writes (taken : Bytes) : Sends connection (connection.record [.write taken]) [] :=
    sends_record connection _ (by simp [App.Action.endsOutput])
  cases result with
  | failed errno =>
    cases rest
    exact writes []
  | wrote count =>
    by_cases some : min count queued.length > 0
    · simp only [some, ↓reduceIte] at rest
      obtain ⟨readIndex, _, rest⟩ := bind_eq_ok.mp rest
      obtain ⟨left, _, rest⟩ := bind_eq_ok.mp rest
      by_cases drained : left = 0
      · simp only [drained, ↓reduceIte] at rest
        cases rest
        exact (writes (queued.take count)).trans (sends_nothing rfl (.inr ⟨_, rfl⟩))
      · simp only [drained, ↓reduceIte] at rest
        cases rest
        exact writes (queued.take count)
    · simp only [some, ↓reduceIte] at rest
      cases rest
      exact writes (queued.take count)

/-- A write event on a calm connection writes nothing. -/
theorem handleWrite_calm (valid : connection.outputBuffer.Valid) (calm : Calm connection)
    (success : connection.handleWrite result = .ok after) : Calm after := by
  unfold TcpConnection.handleWrite at success
  rw [valid.readableSize, ok_bind, readable_block valid, ok_bind, calm.idle.empty] at success
  have writes (taken : Bytes) : Calm (connection.record [.write taken]) := by
    apply calm.record
    intro action member
    rw [List.mem_singleton.mp member]
    rfl
  cases result with
  | failed errno =>
    cases success
    exact writes []
  | wrote count =>
    have none : ¬ min count ([] : Bytes).length > 0 := by simp
    simp only [none, ↓reduceIte] at success
    cases success
    exact writes _

end Output

section Closing

variable {strncmp : Bytes → Bytes → Int} {text : RequestText} {request : RequestBlocks}

/-- The texts of a request without zeros, whose version is as long as the one it is compared
with. -/
structure Comparable (text : RequestText) : Prop where
  version : 0 ∉ text.version
  headers : ∀ header ∈ text.headers, 0 ∉ header.1 ∧ 0 ∉ header.2
  long : App.http10.length ≤ text.version.length

theorem storedPointer_unterminated {bytes : Bytes} (clean : 0 ∉ bytes) :
    storedPointer (unterminated bytes) = ⟨bytes, 0⟩ := by
  have stored : ((bytes.map some ++ [none]).takeWhile Option.isSome).filterMap id = bytes := by
    simp
  rw [storedPointer, unterminated, padded_clean clean]
  exact congrArg (Pointer.mk · 0) stored

/-- The header entries of a parsed request are its header lines. -/
theorem headersSeen_same (same : SameRequest text.headers request text.parsed)
    (fits : text.headers.length ≤ headerCapacity) (comparable : Comparable text) :
    request.headersSeen =
      some (text.headers.map fun header => ⟨.ofText header.1, .ofText header.2⟩) := by
  have seen := @RequestConnection.seen_of_entries request
    (text.headers.map fun header => ⟨.ofText header.1, .ofText header.2⟩) (by
      intro index header found
      rw [List.getElem?_map] at found
      obtain ⟨line, there, rfl⟩ := Option.map_eq_some_iff.mp found
      have inside := (List.getElem?_eq_some_iff.mp there).1
      obtain ⟨key, value⟩ := comparable.headers line (List.mem_of_getElem? there)
      rw [RequestBlocks.entry, same.entries index line (by omega) there]
      simp only [Option.bind_eq_bind, Option.bind_some, pointerTo_terminated,
        textPointer_clean key, textPointer_clean value]
      rfl)
  rw [List.length_map, ← same.number] at seen
  exact seen

/-- A comparison over fewer characters than the left string has needs no terminator there. -/
theorem compare_unterminated {left right : Bytes} (clean : 0 ∉ left) (cleanRight : 0 ∉ right)
    (long : right.length ≤ left.length) :
    HttpRequest.compare strncmp ⟨left, 0⟩ (.ofText right) =
      HttpRequest.compare strncmp (.ofText left) (.ofText right) := by
  have string : (Pointer.mk left 0).string = (Pointer.ofText left).string :=
    (cString_eq clean).trans ((string_ofText left).trans (cString_eq clean)).symm
  have front : (Pointer.mk left 0).front right.length =
      (Pointer.ofText left).front right.length := by
    have inside : 0 ≤ (Pointer.mk left 0).offset ∧
        (right.length ≤ (Pointer.mk left 0).rest.length ∨ 0 ∈ (Pointer.mk left 0).rest) :=
      ⟨Int.le_refl 0, .inl long⟩
    rw [Pointer.front, Pointer.front, if_pos inside,
      if_pos ⟨(ofText_isString left).1, .inr (ofText_isString left).2⟩, string]
  have length : (Pointer.ofText right).strlen = .ok right.length := by
    rw [Pointer.strlen_eq (ofText_isString right), string_ofText, cString_eq cleanRight]
  simp only [HttpRequest.compare, length, ok_bind, front]

/-- A parsed request is closed for when its text is. -/
theorem closeConnection_same (same : SameRequest text.headers request text.parsed)
    (fits : text.headers.length ≤ headerCapacity) (comparable : Comparable text) :
    request.closeConnection strncmp = (HttpRequest.ofText text).closeConnection strncmp := by
  have header := RequestBlocks.getHeader_seen strncmp (headersSeen_same same fits comparable)
    (.ofText App.connectionKey)
  have version : request.version = some (unterminated text.version) :=
    same.version fun waits => (nomatch waits)
  have compared : HttpRequest.compare strncmp (storedPointer (unterminated text.version))
      (.ofText App.http10) =
        HttpRequest.compare strncmp (.ofText text.version) (.ofText App.http10) := by
    rw [storedPointer_unterminated comparable.version]
    exact compare_unterminated comparable.version (by decide) comparable.long
  unfold RequestBlocks.closeConnection HttpRequest.closeConnection
  rw [header, version]
  simp only [compared]
  rfl

end Closing

/-- What happens on a connection: a read that completes the request `text`, which the callback
answers with a response, or a write event for what is queued. -/
inductive Exchange where
  | answer (bytes : Bytes) (text : RequestText) (turn : Turn) (response : HttpResponse)
  | flush (result : WriteResult)

namespace Exchange

def event : Exchange → HttpEvent
  | .answer bytes _ turn _ => .read (some bytes) turn
  | .flush result => .writable result

def texts : Exchange → List RequestText
  | .answer _ text _ _ => [text]
  | .flush _ => []

def responses : Exchange → List HttpResponse
  | .answer _ _ _ response => [response]
  | .flush _ => []

/-- The socket takes the whole response in the first call of `write`. -/
def Taken : Exchange → Prop
  | .answer _ _ turn response => TakenAtOnce response.app.wire turn.responseWrite
  | .flush _ => True

/-- The buffers stay in the range of an `int`, and a direct write of the response does not fail. -/
def Goes (connection : HttpConnection) : Exchange → Prop
  | .answer bytes _ turn response =>
    bytes.length < 2 ^ 31 ∧ ¬ connection.inputBuffer.Overflows bytes.length ∧
      SendGoesWell connection.toTcpConnection response.app.wire.length turn.responseWrite
  | .flush _ => True

end Exchange

/-- The request fits the table, asks to keep the connection, and the callback answers it with a
response that a client can read. -/
structure Answerable (strncmp : Bytes → Bytes → Int) (text : RequestText) (turn : Turn)
    (response : HttpResponse) : Prop where
  wellFormed : text.WellFormed
  fits : text.headers.length ≤ headerCapacity
  comparable : Comparable text
  keeps : (HttpRequest.ofText text).closeConnection strncmp = .ok 0
  memory : turn.memory = true
  answers : ∃ callback, turn.requestCallback = some callback ∧
    ∀ request, SameRequest text.headers request text.parsed →
      callback request .new = (request, response)
  composed : response.Composed
  body : response.body ≠ none
  small : initBufferSize + response.app.wire.length < 2 ^ 31
  encodable : response.app.Encodable

/-- Exchanges between a connection with unread bytes and one with those that are left. -/
inductive Conversation (strncmp : Bytes → Bytes → Int) : Bytes → List Exchange → Bytes → Prop
  | ended (unread : Bytes) : Conversation strncmp unread [] unread
  | answer {unread bytes more left : Bytes} {text : RequestText} {turn : Turn}
      {response : HttpResponse} {exchanges : List Exchange} (filled : bytes ≠ [])
      (completes : unread ++ bytes = text.render ++ more)
      (answerable : Answerable strncmp text turn response)
      (rest : Conversation strncmp more exchanges left) :
      Conversation strncmp unread (.answer bytes text turn response :: exchanges) left
  | flush {unread left : Bytes} {result : WriteResult} {exchanges : List Exchange}
      (rest : Conversation strncmp unread exchanges left) :
      Conversation strncmp unread (.flush result :: exchanges) left

/-- Every exchange goes well in the state in which it begins. -/
def AllGo (strncmp : Bytes → Bytes → Int) : HttpConnection → List Exchange → Prop
  | _, [] => True
  | connection, exchange :: exchanges => exchange.Goes connection ∧
      ∀ fuel next, httpStep strncmp fuel connection exchange.event = .ok next →
        AllGo strncmp next exchanges

/-- The connection between two exchanges. -/
structure Conversing (connection : HttpConnection) (unread : Bytes) : Prop where
  watched : connection.watched = true
  request : ∃ request, connection.request = some request ∧ SameRequest [] request .new
  input : connection.inputBuffer.Valid
  unread : connection.inputBuffer.contents = unread
  output : StreamSound connection.toTcpConnection

/-- What exchanges add: the responses are accepted for sending, and the callback has been called
with the requests. No loop is called where the socket takes each response at once. -/
structure Adds (connection after : HttpConnection) (exchanges : List Exchange) : Prop where
  sends : Sends connection.toTcpConnection after.toTcpConnection
    ((exchanges.flatMap Exchange.responses).flatMap fun response => response.app.wire)
  called : ∃ requests, after.called = connection.called ++ requests ∧
    List.Forall₂ (fun text request => SameRequest text.headers request text.parsed)
      (exchanges.flatMap Exchange.texts) requests
  calm : (∀ exchange ∈ exchanges, exchange.Taken) → Calm connection.toTcpConnection →
    Calm after.toTcpConnection

section Exchanges

variable {strncmp : Bytes → Bytes → Int} {connection after : HttpConnection}
  {unread more left bytes : Bytes} {text : RequestText} {turn : Turn} {response : HttpResponse}
  {exchanges : List Exchange}

theorem Adds.refl (connection : HttpConnection) : Adds connection connection [] :=
  ⟨⟨[], (List.append_nil _).symm, rfl, nofun⟩, ⟨[], (List.append_nil _).symm, .nil⟩, fun _ => id⟩

theorem Adds.trans {next : HttpConnection} {first later : List Exchange}
    (adds : Adds connection next first) (addsLater : Adds next after later) :
    Adds connection after (first ++ later) := by
  obtain ⟨requests, called, same⟩ := adds.called
  obtain ⟨others, calledLater, sameLater⟩ := addsLater.called
  constructor
  · rw [List.flatMap_append, List.flatMap_append]
    exact adds.sends.trans addsLater.sends
  · refine ⟨requests ++ others, ?_, ?_⟩
    · rw [calledLater, called, List.append_assoc]
    · rw [List.flatMap_append]
      exact List.rel_append same sameLater
  · intro taken calm
    obtain ⟨takenFirst, takenLater⟩ := List.forall_mem_append.mp taken
    exact addsLater.calm takenLater (adds.calm takenFirst calm)

/-- A complete request is answered. -/
theorem answerRequest_answers {request : RequestBlocks}
    (answerable : Answerable strncmp text turn response)
    (parsed : SameRequest text.headers request text.parsed)
    (output : StreamSound connection.toTcpConnection)
    (well : SendGoesWell connection.toTcpConnection response.app.wire.length turn.responseWrite) :
    ∃ sent, connection.answerRequest strncmp request turn =
        .ok { connection with
          toTcpConnection := sent
          request := some request.reset
          called := connection.called ++ [request] } ∧
      StreamSound sent ∧ Sends connection.toTcpConnection sent response.app.wire ∧
      (TakenAtOnce response.app.wire turn.responseWrite → Calm connection.toTcpConnection →
        Calm sent) := by
  obtain ⟨callback, set, answers⟩ := answerable.answers
  have empty : Buffer.new.contents = [] := window_empty _ _
  have total : Buffer.new.totalSize = initBufferSize := rfl
  obtain ⟨buffer, encoded, valid, contents⟩ := answerable.composed.encodes Buffer.Valid.new
    (.inr answerable.body) (by
      rw [total]
      exact_mod_cast answerable.small)
  rw [empty, List.nil_append] at contents
  rw [← contents] at well
  obtain ⟨count, sent, drained, success, kept, sends, still⟩ := sendBuffer_sends output valid well
  have stays : request.closeConnection strncmp = .ok 0 :=
    (closeConnection_same parsed answerable.fits answerable.comparable).trans answerable.keeps
  have responds : turn.respond request = (request, response) := by
    rw [Turn.respond, set]
    exact answers request parsed
  have calls : turn.calls request = [request] := by rw [Turn.calls, set]
  rw [contents] at sends still
  refine ⟨sent, ?_, kept, sends, still⟩
  simp only [HttpConnection.answerRequest, responds, calls, answerable.memory, encoded, success,
    stays, ok_bind]
  rfl

/-- The request that stands in the input is answered. -/
theorem httpOnMessage_answers {request : RequestBlocks}
    (answerable : Answerable strncmp text turn response)
    (current : connection.request = some request) (fresh : SameRequest [] request .new)
    (valid : connection.inputBuffer.Valid)
    (contents : connection.inputBuffer.contents = text.render ++ more)
    (output : StreamSound connection.toTcpConnection)
    (well : SendGoesWell connection.toTcpConnection response.app.wire.length turn.responseWrite) :
    ∃ enough after, (∀ fuel, enough ≤ fuel →
        connection.httpOnMessage strncmp fuel turn = .ok after) ∧
      (connection.watched = true → Conversing after more) ∧
      Adds connection after [.answer bytes text turn response] := by
  have front : Behind (text.render ++ more) [] .new ⟨connection.inputBuffer, request, []⟩ :=
    ⟨valid, contents, fresh⟩
  obtain ⟨final, ⟨enough, returns⟩, behind⟩ := parse_render answerable.wellFormed front
  obtain ⟨sent, answered, kept, sends, still⟩ :=
    @answerRequest_answers strncmp { connection with
      inputBuffer := final.input
      request := some final.request } text turn response final.request answerable behind.same
        output well
  refine ⟨enough, { connection with
    toTcpConnection := sent
    inputBuffer := final.input
    request := some final.request.reset
    called := connection.called ++ [final.request] }, ?_, ?_, ?_⟩
  · intro fuel more
    have parsed := Loop.run_mono returns more
    have finished : final.request.currentState = .done := behind.same.state
    have whole : parseHttpRequest fuel ⟨connection.inputBuffer, request, []⟩ = .ok (1, final) := by
      rw [parseHttpRequest, parsed]
      rfl
    have accepts (connection : HttpConnection) :
        connection.rejectMalformed 1 turn = .ok connection := if_neg (by decide)
    simp only [HttpConnection.httpOnMessage, current, whole, bind, Except.bind, accepts,
      Except.mapError, finished, ↓reduceIte, answered]
  · intro watched
    exact ⟨watched, ⟨_, rfl, behind.same.reset⟩, behind.valid, behind.contents, kept⟩
  · refine ⟨?_, ⟨[final.request], rfl, .cons behind.same .nil⟩, ?_⟩
    · rw [List.flatMap_singleton, Exchange.responses, List.flatMap_singleton]
      exact sends
    · exact fun taken => still (taken _ (List.mem_singleton_self _))

/-- A read that completes a request is answered. -/
theorem Conversing.answer (conversing : Conversing connection unread) (filled : bytes ≠ [])
    (completes : unread ++ bytes = text.render ++ more)
    (answerable : Answerable strncmp text turn response)
    (goes : (Exchange.answer bytes text turn response).Goes connection) :
    ∃ enough after, (∀ fuel, enough ≤ fuel →
        httpStep strncmp fuel connection (.read (some bytes) turn) = .ok after) ∧
      Conversing after more ∧ Adds connection after [.answer bytes text turn response] := by
  obtain ⟨short, inside, well⟩ := goes
  obtain ⟨request, current, fresh⟩ := conversing.request
  obtain ⟨input, read, appended⟩ := (conversing.input.socketRead short).resolve_right
    fun overflow => inside overflow.2
  have contents : input.contents = text.render ++ more := by
    rw [appended.contents, conversing.unread, completes]
  obtain ⟨enough, after, message, kept, adds⟩ :=
    @httpOnMessage_answers strncmp { connection with inputBuffer := input } more bytes text turn
      response request answerable current fresh appended.valid contents conversing.output well
  refine ⟨enough, after, ?_, kept conversing.watched, adds.sends, adds.called, adds.calm⟩
  intro fuel more
  have positive : (bytes.length : Int) > 0 := Int.natCast_pos.mpr (List.length_pos_of_ne_nil filled)
  have reads : connection.inputBuffer.socketRead (some bytes) turn.memory =
      .ok (bytes.length, input) := by rw [answerable.memory, read]
  have step : httpStep strncmp fuel connection (.read (some bytes) turn) =
      connection.handleRead strncmp fuel (some bytes) turn := if_pos conversing.watched
  rw [step]
  simp only [HttpConnection.handleRead, reads, bind, Except.bind, Except.mapError, positive,
    ↓reduceIte, message fuel more]

/-- A write event changes neither what was accepted nor what is unread. -/
theorem Conversing.flush (conversing : Conversing connection unread) (result : WriteResult) :
    ∃ after, (∀ fuel, httpStep strncmp fuel connection (.writable result) = .ok after) ∧
      Conversing after unread ∧ Adds connection after [.flush result] := by
  obtain ⟨written, success, kept⟩ := conversing.output.handleWrite result
  refine ⟨{ connection with toTcpConnection := written }, ?_, ?_, ?_, ?_, ?_⟩
  · intro fuel
    simp only [httpStep, conversing.watched, ↓reduceIte, success, bind, Except.bind,
      Except.mapError]
    rfl
  · exact ⟨conversing.watched, conversing.request, conversing.input, conversing.unread, kept⟩
  · exact handleWrite_sends success
  · exact ⟨[], (List.append_nil _).symm, .nil⟩
  · exact fun _ calm => handleWrite_calm conversing.output.output calm success

/-- A whole conversation goes on to its end and adds all responses in order. -/
theorem Conversation.returns (conversation : Conversation strncmp unread exchanges left)
    (conversing : Conversing connection unread) (all : AllGo strncmp connection exchanges) :
    ∃ enough final, (∀ fuel, enough ≤ fuel →
        run (httpStep strncmp fuel) connection (exchanges.map Exchange.event) = .ok final) ∧
      Conversing final left ∧ Adds connection final exchanges := by
  induction conversation generalizing connection with
  | ended unread => exact ⟨0, connection, fun _ _ => rfl, conversing, .refl connection⟩
  | answer filled completes answerable _ ih =>
    obtain ⟨goes, behind⟩ := all
    obtain ⟨enough, next, taken, kept, adds⟩ :=
      conversing.answer filled completes answerable goes
    obtain ⟨later, final, rest, ended, addsLater⟩ :=
      ih kept (behind enough next (taken enough (Nat.le_refl _)))
    refine ⟨max enough later, final, ?_, ended, adds.trans addsLater⟩
    intro fuel more
    exact (run_cons (taken fuel (by omega)) _).trans (rest fuel (by omega))
  | flush _ ih =>
    obtain ⟨_, behind⟩ := all
    obtain ⟨next, taken, kept, adds⟩ := conversing.flush _
    obtain ⟨later, final, rest, ended, addsLater⟩ := ih kept (behind 0 next (taken 0))
    refine ⟨later, final, ?_, ended, adds.trans addsLater⟩
    intro fuel more
    exact (run_cons (taken fuel) _).trans (rest fuel more)

theorem Conversation.encodable (conversation : Conversation strncmp unread exchanges left) :
    ∀ response ∈ exchanges.flatMap Exchange.responses, response.app.Encodable := by
  induction conversation with
  | ended unread => exact fun _ member => nomatch member
  | answer _ _ answerable _ ih =>
    intro response member
    rw [List.flatMap_cons] at member
    rcases List.mem_append.mp member with first | later
    · rw [List.mem_singleton.mp first]
      exact answerable.encodable
    · exact ih response later
  | flush _ ih => exact ih

theorem established_conversing (self : Nat) (connectedFd : Int) :
    Conversing (.established self connectedFd) [] where
  watched := rfl
  request := ⟨.new, rfl, .fresh rfl rfl List.length_replicate⟩
  input := Buffer.Valid.new
  unread := window_empty _ _
  output := new_streamSound self connectedFd

/-- In a conversation over a new connection no step fails, the callback is called for each request,
and the client reads, from what was written and what is still queued, the response to each, in
order. The write interest is changed only for a response that the socket does not take at once. -/
theorem conversation_answered (self : Nat) (connectedFd : Int)
    (conversation : Conversation strncmp [] exchanges left)
    (all : AllGo strncmp (.established self connectedFd) exchanges) :
    ∃ enough final received, (∀ fuel, enough ≤ fuel →
        run (httpStep strncmp fuel) (.established self connectedFd)
          (exchanges.map Exchange.event) = .ok final) ∧
      final.inputBuffer.contents = left ∧
      List.Forall₂ (fun text request => SameRequest text.headers request text.parsed)
        (exchanges.flatMap Exchange.texts) final.called ∧
      App.readResponses (written final.trace ++ final.outputBuffer.contents) = some received ∧
      List.Forall₂ (fun response answer => response.app.ReadAs answer)
        (exchanges.flatMap Exchange.responses) received ∧
      (∀ action ∈ final.trace, action.endsOutput = false) ∧
      ((∀ exchange ∈ exchanges, exchange.Taken) → Local final.trace) := by
  obtain ⟨enough, final, success, ended, adds⟩ :=
    conversation.returns (established_conversing self connectedFd) all
  obtain ⟨actions, trace, taken, still⟩ := adds.sends
  obtain ⟨requests, called, same⟩ := adds.called
  have delimits := fun response member => (conversation.encodable response member).delimits
  have enoughBytes := length_le_flatMap fun response member => (delimits response member).1
  have began : (HttpConnection.established self connectedFd).trace = [] := rfl
  have uncalled : (HttpConnection.established self connectedFd).called = [] := rfl
  rw [began, List.nil_append] at trace
  rw [uncalled, List.nil_append] at called
  refine ⟨enough, final, (exchanges.flatMap Exchange.responses).map fun response =>
    response.app.received, success, ended.unread, called ▸ same, ?_, ?_, trace ▸ still, ?_⟩
  · rw [ended.output.stream, trace, taken]
    exact readAll_flatMap delimits enoughBytes
  · rw [List.forall₂_map_right_iff, List.forall₂_same]
    exact fun response _ => response.app.received_readAs
  · exact fun taken => (adds.calm taken ⟨new_idle self connectedFd, fun _ member =>
      (nomatch member)⟩).silent

/-- The page that `http_server01.c` has for `/network`. -/
def networkPage : HttpResponse where
  statusCode := 200
  statusMessage := some (.ofText (App.ascii "OK"))
  body := some (.ofText (App.ascii "hello, network programming"))
  responseHeaders := some []
  keepConnected := 0

theorem networkPage_composed : networkPage.Composed where
  leastStatus := by decide
  mostStatus := by decide
  message := by simp [networkPage, ofText_isString]
  body := by simp [networkPage, ofText_isString]
  headers := by simp [networkPage]
  ascending := .nil
  short := by decide

theorem networkPage_encodable : networkPage.app.Encodable := by
  have none : ∀ key value, networkPage.app.headers.lookup key ≠ some value := by
    intro key value found
    have empty : networkPage.app.headers = ∅ := rfl
    rw [empty, AList.lookup_empty] at found
    cases found
  exact ⟨rfl, by decide, fun key value found => absurd found (none key value),
    fun key value found => absurd found (none key value), by decide, by decide⟩

/-- A server that has one page. -/
def Turn.page (result : WriteResult) : Turn where
  requestCallback := some fun request _ => (request, networkPage)
  errorWrite := .wrote 0
  responseWrite := result
  memory := true

theorem Turn.page_answerable (result : WriteResult) :
    Answerable difference .sample (.page result) networkPage where
  wellFormed := RequestText.sample_wellFormed
  fits := by decide
  comparable := ⟨by decide, by decide, by decide⟩
  keeps := rfl
  memory := rfl
  answers := ⟨_, rfl, fun _ _ => rfl⟩
  composed := networkPage_composed
  body := nofun
  small := by decide
  encodable := networkPage_encodable

/-- A request with some of the next one is answered by two writes. -/
theorem conversation_answered_sample : ∃ enough final received, (∀ fuel, enough ≤ fuel →
      run (httpStep difference fuel) (.established 0 9)
        [.read (some (RequestText.sample.render ++ RequestText.sample.render.take 20))
          (.page (.wrote 5)), .writable (.wrote 90)] = .ok final) ∧
    final.inputBuffer.contents = RequestText.sample.render.take 20 ∧
    List.Forall₂ (fun (text : RequestText) (request : RequestBlocks) =>
      SameRequest text.headers request text.parsed) [RequestText.sample] final.called ∧
    App.readResponses (written final.trace ++ final.outputBuffer.contents) = some received ∧
    List.Forall₂ (fun (response : HttpResponse) (answer : App.ReceivedResponse) =>
      response.app.ReadAs answer) [networkPage] received ∧
    (∀ action ∈ final.trace, action.endsOutput = false) ∧
    ((∀ exchange ∈ [Exchange.answer
      (RequestText.sample.render ++ RequestText.sample.render.take 20) .sample
        (.page (.wrote 5)) networkPage, .flush (.wrote 90)], exchange.Taken) →
          Local final.trace) := by
  have conversation : Conversation difference []
      [.answer (RequestText.sample.render ++ RequestText.sample.render.take 20) .sample
        (.page (.wrote 5)) networkPage, .flush (.wrote 90)] (RequestText.sample.render.take 20) :=
    .answer (by decide) rfl (Turn.page_answerable _) (.flush (.ended _))
  have length : (RequestText.sample.render ++ RequestText.sample.render.take 20).length = 99 := by
    rw [List.length_append, List.length_take, App.sample_render_length]
    rfl
  have wire : networkPage.app.wire.length < 2 ^ 30 := by decide
  have room : ∀ size : Nat, size < 2 ^ 30 → ¬ Buffer.new.Overflows size := by
    intro size small overflows
    have large := overflows.2
    have block : Buffer.new.totalSize = 65536 := rfl
    omega
  refine conversation_answered 0 9 conversation ⟨⟨?_, ?_, ?_, ?_⟩, fun _ _ _ =>
    ⟨trivial, fun _ _ _ => trivial⟩⟩
  · rw [length]
    decide
  · rw [length]
    exact room 99 (by decide)
  · exact fun _ => ⟨5, rfl, room _ (by omega)⟩
  · exact fun _ => room _ wire

end Exchanges

end Yolanda.Lib
