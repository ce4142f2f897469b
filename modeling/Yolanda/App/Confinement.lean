import Yolanda.App.HalfClose
import Yolanda.App.ParserProgress

/-! What the parser may look at. `find_CRLF` searches to the end of the string, past
the write position, so the parser stays within the readable bytes only if those
settle each of its searches. -/

namespace Yolanda.App

open Foundation TcpConnection

/-- The unread bytes of a header block settle every search, though `stale` ones follow. -/
inductive HeaderSettled (stale : Bytes) : Bytes → Prop where
  | missing (none : ¬ crlf <:+: text ++ stale) : HeaderSettled stale text
  | last (clear : ¬ crlf <:+: line) (short : line.length < 2 ^ 31)
      (plain : ¬ colonSpace <:+: line) : HeaderSettled stale (line ++ crlf ++ rest)
  | more (clear : ¬ crlf <:+: line) (short : line.length < 2 ^ 31)
      (colon : colonSpace <:+: line) (block : HeaderSettled stale rest) :
      HeaderSettled stale (line ++ crlf ++ rest)

/-- The same for a request. A request line with fewer than two spaces ends the process. -/
inductive RequestSettled (stale : Bytes) : Bytes → Prop where
  | missing (none : ¬ crlf <:+: text ++ stale) : RequestSettled stale text
  | malformed (clear : ¬ crlf <:+: line)
      (unsplit : ¬ ∃ method url version, SplitsAs line method url version) :
      RequestSettled stale (line ++ crlf ++ rest)
  | line (clear : ¬ crlf <:+: line) (short : line.length < 2 ^ 31)
      (split : SplitsAs line method url version) (block : HeaderSettled stale rest) :
      RequestSettled stale (line ++ crlf ++ rest)

/-- What the unread bytes settle in each state of the parser. -/
def Settled (stale : Bytes) : HttpRequestState → Bytes → Prop
  | .status, text => RequestSettled stale text
  | .headers, text => HeaderSettled stale text
  | .body, _ => False
  | .done, _ => True

/-- All fields of the request are pieces of the block. -/
structure MadeOf (request : HttpRequest) (block : Bytes) : Prop where
  method : request.method <:+: block
  url : request.url <:+: block
  version : request.version <:+: block
  headers : ∀ key value, request.headers.lookup key = some value →
    key <:+: block ∧ value <:+: block

theorem MadeOf.mono {request : HttpRequest} {block more : Bytes} (made : MadeOf request block)
    (inside : block <:+: more) : MadeOf request more := by
  refine ⟨made.method.trans inside, made.url.trans inside, made.version.trans inside, ?_⟩
  intro key value found
  obtain ⟨keyInside, valueInside⟩ := made.headers key value found
  exact ⟨keyInside.trans inside, valueInside.trans inside⟩

theorem MadeOf.new (block : Bytes) : MadeOf .new block := by
  have empty : ([] : Bytes) <:+: block := List.nil_infix
  refine ⟨empty, empty, empty, ?_⟩
  intro key value found
  cases found

/-- A state of the parser that has taken `block` from the unread bytes and is settled
by the others. -/
structure Within (stale block : Bytes) (state : Parsing) : Prop where
  valid : state.input.Valid
  behind : state.input.stale = stale
  settled : Settled stale state.request.curState state.input.contents
  made : MadeOf state.request block
  fresh : state.request.curState = .status → state.request = .new

section Step

variable {stale block text : Bytes} {input : Buffer} {request : HttpRequest} {next : Parsing}

theorem SplitsAs.madeOf {line method url version : Bytes} (split : SplitsAs line method url version)
    (rest : Bytes) : MadeOf { HttpRequest.new.withLine method url version with curState := .headers }
      (line ++ rest) := by
  have pieces : method <:+: line ∧ url <:+: line ∧ version <:+: line := by
    rw [split.split]
    refine ⟨?_, ?_, ?_⟩
    · simp only [List.append_assoc]
      exact (List.prefix_append _ _).isInfix
    · exact ⟨method ++ space, space ++ version, by simp only [List.append_assoc]⟩
    · exact (List.suffix_append _ _).isInfix
  have front : line <:+: line ++ rest := (List.prefix_append _ _).isInfix
  refine ⟨?_, ?_, ?_, ?_⟩
  · change method ++ [] <:+: line ++ rest
    rw [List.append_nil]
    exact pieces.1.trans front
  · change url ++ [] <:+: line ++ rest
    rw [List.append_nil]
    exact pieces.2.1.trans front
  · change version ++ [] <:+: line ++ rest
    rw [List.append_nil]
    exact pieces.2.2.trans front
  · intro key value found
    cases found

theorem MadeOf.emplace {line : Bytes} (made : MadeOf request block) (colon : Nat) (rest : Bytes) :
    MadeOf { request with
      headers := request.headers.emplace (line.take colon) (line.drop (colon + 2)) }
      (block ++ (line ++ rest)) := by
  have wider := made.mono (List.prefix_append block (line ++ rest)).isInfix
  have inside : line <:+: block ++ (line ++ rest) := ⟨block, rest, List.append_assoc ..⟩
  refine ⟨wider.method, wider.url, wider.version, ?_⟩
  intro key value found
  rw [Headers.lookup_emplace] at found
  cases earlier : request.headers.lookup key with
  | some old =>
    rw [earlier, Option.some_or] at found
    have same := Option.some.inj found
    subst same
    exact wider.headers key old earlier
  | none =>
    rw [earlier, Option.none_or] at found
    by_cases same : key = line.take colon
    · rw [if_pos same] at found
      cases found
      refine ⟨?_, (List.drop_suffix _ _).isInfix.trans inside⟩
      rw [same]
      exact (List.take_prefix _ _).isInfix.trans inside
    · rw [if_neg same] at found
      cases found

theorem Within.unread (within : Within stale block ⟨input, request⟩) :
    input.unread = input.contents ++ stale := by
  rw [← within.behind]
  exact within.valid.unread_eq

/-- Without a line end in sight the loop body changes nothing. -/
theorem Within.stuck (within : Within stale block ⟨input, request⟩)
    (step : parseLoop.Step ⟨input, request⟩ next)
    (missing : ¬ crlf <:+: input.contents ++ stale) : next = ⟨input, request⟩ := by
  have same : parseLoop.body ⟨input, request⟩ = .ok ⟨input, request⟩ :=
    body_stuck (within.unread ▸ missing)
  exact Except.ok.inj (step.2.symm.trans same)

/-- A loop body that takes a line: the request it leaves is made of what was taken. -/
private theorem Within.takeLine {line rest : Bytes} {later : HttpRequest}
    (within : Within stale block ⟨input, request⟩)
    (contents : input.contents = line ++ crlf ++ rest)
    (settled : Settled stale later.curState rest) (made : MadeOf later (block ++ (line ++ crlf)))
    (moved : later.curState ≠ .status) :
    ∃ taken, input.contents = taken ++ (input.consume (line.length + 2)).contents ∧
      Within stale (block ++ taken) ⟨input.consume (line.length + 2), later⟩ := by
  obtain ⟨consumed, left⟩ := within.valid.consume_line contents
  refine ⟨line ++ crlf, ?_, consumed, within.behind, ?_, made, ?_⟩
  · rw [left]
    exact contents
  · change Settled stale later.curState (input.consume (line.length + 2)).contents
    rw [left]
    exact settled
  · exact fun waiting => absurd waiting moved

/-- The loop body that ends the request takes the two bytes of the empty line. -/
private theorem Within.takeLast {line rest : Bytes} (within : Within stale block ⟨input, request⟩)
    (contents : input.contents = line ++ crlf ++ rest) :
    ∃ taken, input.contents = taken ++ (input.consume 2).contents ∧
      Within stale (block ++ taken) ⟨input.consume 2, { request with curState := .done }⟩ := by
  have inside : 2 ≤ input.contents.length := by
    rw [contents]
    simp only [List.length_append, crlf, List.length_cons, List.length_nil]
    omega
  obtain ⟨consumed, left⟩ := within.valid.advance 2 inside
  have wider := within.made.mono (List.prefix_append block (input.contents.take 2)).isInfix
  refine ⟨input.contents.take 2, ?_, consumed, within.behind, trivial, ?_, ?_⟩
  · rw [show (input.consume 2).contents = input.contents.drop 2 from left, List.take_append_drop]
  · exact ⟨wider.method, wider.url, wider.version, wider.headers⟩
  · intro waiting
    cases waiting

/-- A loop body that is executed on settled bytes takes a further block from them. -/
theorem Within.step (within : Within stale block ⟨input, request⟩)
    (step : parseLoop.Step ⟨input, request⟩ next) :
    ∃ taken, input.contents = taken ++ next.input.contents ∧
      Within stale (block ++ taken) next := by
  have waits : ¬ crlf <:+: input.contents ++ stale → ∃ taken,
      input.contents = taken ++ next.input.contents ∧ Within stale (block ++ taken) next := by
    intro missing
    cases within.stuck step missing
    exact ⟨[], rfl, (List.append_nil block).symm ▸ within⟩
  have settled := within.settled
  generalize state : request.curState = curState at settled
  generalize contents : input.contents = text at settled
  cases curState with
  | status =>
    have new : request = .new := within.fresh state
    cases settled with
    | missing none => exact contents ▸ waits (contents.symm ▸ none)
    | @malformed line rest clear unsplit =>
      have unread := within.valid.unread_line_stale contents
      rcases processStatusLine_cases line request with split | fails
      · exact absurd split unsplit
      · have stops := body_status_error state unread clear fails
        rw [step.2] at stops
        cases stops
    | @line line method url version rest clear short split settled =>
      have unread := within.valid.unread_line_stale contents
      have made := (split.madeOf crlf).mono (List.suffix_append block _).isInfix
      cases step.unique (step_status state unread clear short split)
      rw [← contents, new]
      exact (new ▸ within).takeLine contents settled made nofun
  | headers =>
    cases settled with
    | missing none => exact contents ▸ waits (contents.symm ▸ none)
    | @last line rest clear short plain =>
      have unread := within.valid.unread_line_stale contents
      cases step.unique (step_last state unread clear short plain)
      rw [← contents]
      exact within.takeLast contents
    | @more line rest clear short colon settled =>
      have unread := within.valid.unread_line_stale contents
      obtain ⟨offset, found⟩ := Option.ne_none_iff_exists'.mp fun missing =>
        search_eq_none.mp missing colon
      have made : MadeOf { request with
          headers := request.headers.emplace (line.take offset) (line.drop (offset + 2)) }
          (block ++ (line ++ crlf)) := within.made.emplace offset crlf
      cases step.unique (step_header state unread clear short found)
      rw [← contents]
      exact within.takeLine contents (by rw [state]; exact settled) made (by rw [state]; nofun)
  | body => cases settled
  | done =>
    have running := step.1
    simp [parseLoop, state] at running

private theorem findCRLF_inside {line rest : Bytes} (valid : input.Valid) (clear : ¬ crlf <:+: line)
    (contents : input.contents = line ++ crlf ++ rest) {position : Nat}
    (found : input.findCRLF = some position) :
    input.readIndex ≤ position ∧ position + 2 ≤ input.writeIndex := by
  have first := findCRLF_line (valid.unread_line_stale contents) clear
  rw [found] at first
  have here := Option.some.inj first
  have size := congrArg List.length contents
  rw [valid.length_contents] at size
  simp only [List.length_append, crlf, List.length_cons, List.length_nil] at size
  omega

/-- On settled bytes `find_CRLF` reports line ends among the readable bytes only. -/
theorem Within.findCRLF (within : Within stale block ⟨input, request⟩)
    (running : request.curState ≠ .done) {position : Nat}
    (found : input.findCRLF = some position) :
    input.readIndex ≤ position ∧ position + 2 ≤ input.writeIndex := by
  have nothing : ¬ ¬ crlf <:+: input.contents ++ stale := by
    intro missing
    rw [findCRLF_missing (within.unread ▸ missing)] at found
    cases found
  have settled := within.settled
  have valid : input.Valid := within.valid
  generalize state : request.curState = curState at settled
  generalize contents : input.contents = text at settled
  cases curState with
  | status =>
    cases settled with
    | missing none => exact absurd (contents.symm ▸ none) nothing
    | malformed clear unsplit => exact findCRLF_inside valid clear contents found
    | line clear short split settled => exact findCRLF_inside valid clear contents found
  | headers =>
    cases settled with
    | missing none => exact absurd (contents.symm ▸ none) nothing
    | last clear short plain => exact findCRLF_inside valid clear contents found
    | more clear short colon settled => exact findCRLF_inside valid clear contents found
  | body => cases settled
  | done => exact absurd state running

/-- All states of the loop stay within the bytes that were unread at its start. -/
theorem Within.chain {start final : Parsing} (within : Within stale block start)
    (chain : Relation.ReflTransGen parseLoop.Step start final) :
    ∃ taken, start.input.contents = taken ++ final.input.contents ∧
      Within stale (block ++ taken) final := by
  induction chain with
  | refl => exact ⟨[], rfl, (List.append_nil block).symm ▸ within⟩
  | tail _ step ih =>
    obtain ⟨taken, contents, middle⟩ := ih
    obtain ⟨further, later, final⟩ := middle.step step
    refine ⟨taken ++ further, ?_, ?_⟩
    · rw [contents, later, List.append_assoc]
    · rw [← List.append_assoc]
      exact final

end Step

/-- A read keeps the parser within the readable bytes: no more than one `readv` can
deliver, and after it the unread bytes settle every search. -/
def ShelteredEvent (connection : TcpConnection) : HttpEvent → Prop
  | .read (some bytes) _ => connection.watched = true →
      bytes.length ≤ connection.inputBuffer.capacity ∧
      RequestSettled (connection.inputBuffer.staleAfter bytes)
        (connection.inputBuffer.contents ++ bytes)
  | _ => True

/-- Whenever the handler of the event calls `find_CRLF`, a reported line end lies
between the read and the write position. -/
def ReportsInside (connection : TcpConnection) : HttpEvent → Prop
  | .read (some bytes) _ => ∀ count input request state position,
      connection.watched = true →
      connection.inputBuffer.socketRead (some bytes) = .ok (count, input) →
      connection.request = some request →
      Relation.ReflTransGen parseLoop.Step ⟨input, request⟩ state →
      state.request.curState ≠ .done → state.input.findCRLF = some position →
      state.input.readIndex ≤ position ∧ position + 2 ≤ state.input.writeIndex
  | _ => True

/-- The bytes that the read events deliver before one of them ends the connection. -/
def delivered : List HttpEvent → Bytes
  | .read (some (head :: tail)) _ :: events => head :: tail ++ delivered events
  | .writable _ :: events => delivered events
  | _ => []

/-- A connection between two events. -/
structure Receiving (connection : TcpConnection) : Prop where
  input : connection.inputBuffer.Valid
  output : connection.outputBuffer.Valid
  request : connection.watched = true → connection.request = some .new

variable {connection after : TcpConnection} {turn : Turn} {fuel : Nat}

theorem Receiving.within (receiving : Receiving connection) {bytes : Bytes} {count : Int}
    {input : Buffer} (watched : connection.watched = true)
    (sheltered : ShelteredEvent connection (.read (some bytes) turn))
    (read : connection.inputBuffer.socketRead (some bytes) = .ok (count, input)) :
    input.contents = connection.inputBuffer.contents ++ bytes ∧
      Within input.stale [] ⟨input, .new⟩ := by
  obtain ⟨filled, success, valid, contents⟩ :=
    receiving.input.socketRead bytes (sheltered watched).1
  cases success.symm.trans read
  have settled := (sheltered watched).2
  rw [← contents, ← receiving.input.socketRead_stale (sheltered watched).1 read] at settled
  exact ⟨contents, valid, rfl, settled, MadeOf.new [], fun _ => rfl⟩

/-- A read that is handled takes a block off the unread bytes, and the request is made
of that block. -/
theorem Receiving.handled (receiving : Receiving connection) {received : Option Bytes}
    (watched : connection.watched = true)
    (sheltered : ShelteredEvent connection (.read received turn))
    (success : httpStep fuel connection (.read received turn) = .ok after) :
    ((received = none ∨ received = some []) ∧ after = closedConnection connection) ∨
      ∃ bytes block request, received = some bytes ∧ bytes ≠ [] ∧ Receiving after ∧
        after.watched = true ∧ connection.inputBuffer.contents ++ bytes =
          block ++ after.inputBuffer.contents ∧
        MadeOf request block ∧
        requests after.trace = requests connection.trace ++ requests (turn.calls request) := by
  rcases httpStep_read_cases watched success with closed | ⟨bytes, input, same, some, read, message⟩
  · exact .inl closed
  · right
    subst same
    obtain ⟨request, parsed, sent, closes, handled⟩ := httpOnMessage_handled message
    have pending : request = .new :=
      Option.some.inj (handled.pending.symm.trans (receiving.request watched))
    subst pending
    obtain ⟨contents, start⟩ := receiving.within watched sheltered read
    obtain ⟨chain, _⟩ := Loop.returns_iff.mp handled.returns
    obtain ⟨block, split, final⟩ := start.chain chain
    obtain ⟨actions, trace, _, sending, _⟩ := handled.trace
    have last := closing_quiet closes sent.outputBuffer.contents
    refine ⟨bytes, block, parsed.request, rfl, some, ⟨?_, handled.output receiving.output, ?_⟩,
      ?_, ?_, final.made, ?_⟩
    · rw [handled.inputBuffer]
      exact final.valid
    · intro _
      rw [handled.result]
    · rw [handled.watched]
      exact watched
    · rw [← contents, handled.inputBuffer]
      exact split
    · rw [trace, requests_append, requests_append, requests_append, sending.requests, last.1,
        List.append_nil, List.append_nil]

theorem Receiving.writable (receiving : Receiving connection) {result : WriteResult}
    (watched : connection.watched = true)
    (success : httpStep fuel connection (.writable result) = .ok after) :
    Receiving after ∧ after.inputBuffer = connection.inputBuffer ∧ after.watched = true ∧
      requests after.trace = requests connection.trace := by
  obtain ⟨kept, taken, updates, trace, silent, _⟩ :=
    httpStep_writable watched receiving.output success
  refine ⟨⟨?_, kept.output receiving.output, ?_⟩, kept.inputBuffer, kept.watched.trans watched, ?_⟩
  · rw [kept.inputBuffer]
    exact receiving.input
  · intro still
    rw [kept.request]
    exact receiving.request watched
  · rw [trace, requests_append, silent, List.append_nil]

/-- Every event leaves a connection that can receive further bytes, or none at all. -/
theorem Receiving.step (receiving : Receiving connection) {event : HttpEvent}
    (sheltered : ShelteredEvent connection event)
    (success : httpStep fuel connection event = .ok after) : Receiving after := by
  cases watched : connection.watched with
  | false =>
    rw [httpStep_unwatched watched] at success
    cases success
    exact receiving
  | true =>
    cases event with
    | read received turn =>
      rcases receiving.handled watched sheltered success with
        ⟨_, same⟩ | ⟨_, _, _, _, _, kept, _⟩
      · subst same
        refine ⟨receiving.input, receiving.output, ?_⟩
        intro still
        cases still
      · exact kept
    | writable result => exact (receiving.writable watched success).1

theorem Receiving.reports (receiving : Receiving connection) {event : HttpEvent}
    (sheltered : ShelteredEvent connection event) : ReportsInside connection event := by
  cases event with
  | writable result => trivial
  | read received turn =>
    cases received with
    | none => trivial
    | some bytes =>
      intro count input request state position watched read pending chain running found
      have new : request = .new :=
        Option.some.inj (pending.symm.trans (receiving.request watched))
      subst new
      obtain ⟨_, start⟩ := receiving.within watched sheltered read
      obtain ⟨taken, _, within⟩ := start.chain chain
      exact within.findCRLF running found

private theorem run_unwatched {events : List HttpEvent} (unwatched : connection.watched = false) :
    run (httpStep fuel) connection events = .ok connection := by
  induction events with
  | nil => rfl
  | cons event events ih => exact (run_cons (httpStep_unwatched unwatched) events).trans ih

/-- The blocks taken off the stream of delivered bytes, each with the request made of it. -/
structure Accounts (before : Bytes) (stream : Bytes) (after : Bytes) (called : List HttpRequest)
    (handled : List (Bytes × HttpRequest)) : Prop where
  stream : before ++ stream = (handled.map Prod.fst).flatten ++ after
  made : ∀ entry ∈ handled, MadeOf entry.2 entry.1
  called : called.Sublist (handled.map Prod.snd)

/-- One more request in front of the others. -/
theorem Accounts.cons {before middle after bytes stream block : Bytes} {request : HttpRequest}
    {first others : List HttpRequest} {handled : List (Bytes × HttpRequest)}
    (split : before ++ bytes = block ++ middle) (made : MadeOf request block)
    (one : first.Sublist [request]) (accounts : Accounts middle stream after others handled) :
    Accounts before (bytes ++ stream) after (first ++ others) ((block, request) :: handled) := by
  constructor
  · rw [← List.append_assoc, split, List.append_assoc, accounts.stream, List.map_cons,
      List.flatten_cons, List.append_assoc]
  · intro entry member
    rcases List.mem_cons.mp member with here | there
    · rw [here]
      exact made
    · exact accounts.made entry there
  · exact one.append accounts.called

private theorem calls_sublist (turn : Turn) (request : HttpRequest) :
    (requests (turn.calls request)).Sublist [request] := by
  unfold Turn.calls
  cases turn.requestCallback with
  | none => exact List.nil_sublist _
  | some callback => exact List.Sublist.refl _

/-- What has been delivered is what the requests were made of, followed by what is
still unread. -/
theorem Receiving.accounts {events : List HttpEvent} {final : TcpConnection}
    (receiving : Receiving connection) (watched : connection.watched = true)
    (along : Along (httpStep fuel) ShelteredEvent connection events)
    (success : run (httpStep fuel) connection events = .ok final) :
    ∃ called handled, requests final.trace = requests connection.trace ++ called ∧
      Accounts connection.inputBuffer.contents (delivered events) final.inputBuffer.contents
        called handled := by
  have nothing : ∀ contents : Bytes, Accounts contents [] contents [] [] :=
    fun contents => ⟨List.append_nil contents, (fun _ member => nomatch member), List.nil_sublist _⟩
  induction events generalizing connection with
  | nil =>
    cases success
    exact ⟨[], [], (List.append_nil _).symm, nothing _⟩
  | cons event events ih =>
    obtain ⟨next, taken, rest⟩ := run_cons_ok.mp success
    have kept := receiving.step along.1 taken
    cases event with
    | read received turn =>
      rcases receiving.handled watched along.1 taken with
        ⟨gone, same⟩ | ⟨bytes, block, request, same, nonempty, _, still, split, made, trace⟩
      · subst same
        have stopped : final = closedConnection connection :=
          Except.ok.inj (rest.symm.trans (run_unwatched rfl))
        have none : delivered (.read received turn :: events) = [] := by
          rcases gone with none | empty
          · rw [none]
            rfl
          · rw [empty]
            rfl
        rw [stopped, none]
        refine ⟨[], [], ?_, nothing _⟩
        change requests (connection.trace ++ _) = _
        rw [requests_append]
        rfl
      · obtain ⟨called, handled, later, accounts⟩ := ih kept still (along.2 next taken) rest
        have stream : delivered (.read received turn :: events) = bytes ++ delivered events := by
          rw [same]
          cases bytes with
          | nil => exact absurd rfl nonempty
          | cons head tail => rfl
        rw [stream]
        refine ⟨requests (turn.calls request) ++ called, (block, request) :: handled, ?_,
          Accounts.cons split made (calls_sublist turn request) accounts⟩
        rw [later, trace, List.append_assoc]
    | writable result =>
      obtain ⟨_, input, still, silent⟩ := receiving.writable watched taken
      obtain ⟨called, handled, later, accounts⟩ := ih kept still (along.2 next taken) rest
      rw [input] at accounts
      rw [silent] at later
      exact ⟨called, handled, later, accounts⟩

/-- In a run whose reads keep the parser within the readable bytes the buffer stays
valid, every request is made of delivered bytes that no other request took, and no
line end is reported outside the readable bytes. -/
theorem receive_confined {self eventLoop : Nat} {connectedFd : Int} {events : List HttpEvent}
    {final : TcpConnection}
    (along : Along (httpStep fuel) ShelteredEvent (.established self eventLoop connectedFd) events)
    (success : run (httpStep fuel) (.established self eventLoop connectedFd) events = .ok final) :
    final.inputBuffer.Valid ∧
      (∃ handled : List (Bytes × HttpRequest),
        delivered events = (handled.map Prod.fst).flatten ++ final.inputBuffer.contents ∧
        (∀ entry ∈ handled, MadeOf entry.2 entry.1) ∧
        (requests final.trace).Sublist (handled.map Prod.snd)) ∧
      Along (httpStep fuel) ReportsInside (.established self eventLoop connectedFd) events := by
  have start : Receiving (.established self eventLoop connectedFd) :=
    ⟨Buffer.new_valid, Buffer.new_valid, fun _ => rfl⟩
  have finished := run_invariant Receiving
    (fun _ _ _ receiving sheltered taken => receiving.step sheltered taken) start along success
  refine ⟨finished.input, ?_, ?_⟩
  · obtain ⟨called, handled, trace, accounts⟩ := start.accounts rfl along success
    have stream := accounts.stream
    change Buffer.new.contents ++ delivered events = _ at stream
    rw [Buffer.new_contents, List.nil_append] at stream
    refine ⟨handled, stream, accounts.made, ?_⟩
    rw [trace]
    exact accounts.called
  · exact along.imp Receiving (fun _ _ _ receiving sheltered taken => receiving.step sheltered taken)
      (fun _ _ receiving sheltered => receiving.reports sheltered) start

section Texts

variable {text : RequestText}

theorem headers_settled (stale more : Bytes) (headers : List (Bytes × Bytes))
    (wellFormed : ∀ header ∈ headers, RequestText.HeaderWellFormed header)
    (short : ∀ header ∈ headers, (RequestText.headerLine header).length < 2 ^ 31) :
    HeaderSettled stale
      (headers.flatMap (fun header => RequestText.headerLine header ++ crlf) ++ crlf ++ more) := by
  induction headers with
  | nil =>
    have last : HeaderSettled stale ([] ++ crlf ++ more) :=
      .last (by decide) (by decide) (by decide)
    exact last
  | cons header headers ih =>
    have well := wellFormed header (List.mem_cons_self ..)
    have block := ih (fun other member => wellFormed other (List.mem_cons_of_mem _ member))
      (fun other member => short other (List.mem_cons_of_mem _ member))
    have colon : colonSpace <:+: RequestText.headerLine header := ⟨header.1, header.2, rfl⟩
    have first := HeaderSettled.more well.line_clear (short header (List.mem_cons_self ..)) colon
      block
    simpa only [List.flatMap_cons, List.append_assoc] using first

/-- A complete well-formed request is settled, whatever is left behind it. -/
theorem render_settled (stale more : Bytes) (wellFormed : text.WellFormed) (short : text.Short) :
    RequestSettled stale (text.render ++ more) := by
  have block := headers_settled stale more text.headers wellFormed.headers short.headers
  have whole := RequestSettled.line wellFormed.line_clear short.status wellFormed.splits block
  simpa only [RequestText.render, List.append_assoc] using whole

end Texts

/-- A first read that brings a whole request is handled. -/
theorem established_render {text : RequestText} (wellFormed : text.WellFormed)
    (short : text.Short) (fits : text.render.length ≤ initBufferSize) {result : WriteResult}
    (decides : text.parsed.closeConnection = .ok closes) :
    ∃ fuel after, httpStep fuel (.established 0 0 9)
        (.read (some text.render) (.answering result)) = .ok after ∧
      Ready after ∧ after.inputBuffer = (Buffer.received text.render).consume text.render.length := by
  have nonempty : text.render ≠ [] := by
    apply List.ne_nil_of_length_pos
    simp only [RequestText.render, List.length_append, crlf, List.length_cons]
    omega
  have arrival : Arrival (.established 0 0 9) text.render text [] := by
    refine ⟨nonempty, le_capacity _ fits, ?_, wellFormed, short⟩
    change Buffer.new.contents ++ _ = _
    rw [Buffer.new_contents, List.nil_append, List.append_nil]
  obtain ⟨fuel, after, success, served⟩ := arrival.returns (established_ready 0 0 9)
    (unsent_storable _ (small_wire result _) _) decides
  refine ⟨fuel, after, success, served.ready, ?_⟩
  have unread : (Buffer.received text.render).unread = text.render ++
      List.replicate (initBufferSize - text.render.length) 0 := received_unread _
  have start := established_ready 0 0 9
  have read : (TcpConnection.established 0 0 9).inputBuffer.socketRead (some text.render) =
      .ok (text.render.length, .received text.render) := Buffer.new_socketRead fits
  obtain ⟨sent, closes, handled⟩ := httpStep_handled start.watched start.request nonempty read
    (parse_render wellFormed short unread) success
  exact handled.inputBuffer

theorem receive_confined_sample :
    ∃ fuel final,
      run (httpStep fuel) (.established 0 0 9)
        [.read (some RequestText.sample.render) (.answering (.wrote 58))] = .ok final ∧
      final.inputBuffer.Valid ∧
      (∃ handled : List (Bytes × HttpRequest),
        delivered [.read (some RequestText.sample.render) (.answering (.wrote 58))] =
          (handled.map Prod.fst).flatten ++ final.inputBuffer.contents ∧
        (∀ entry ∈ handled, MadeOf entry.2 entry.1) ∧
        (requests final.trace).Sublist (handled.map Prod.snd)) ∧
      Along (httpStep fuel) ReportsInside (.established 0 0 9)
        [.read (some RequestText.sample.render) (.answering (.wrote 58))] := by
  have fits : RequestText.sample.render.length ≤ initBufferSize := by decide
  obtain ⟨fuel, final, step, _⟩ := established_render RequestText.sample_wellFormed
    RequestText.sample_short fits (sample_keeps (.wrote 58))
  have success := (run_cons step []).trans rfl
  refine ⟨fuel, final, success, receive_confined ⟨?_, fun _ _ => trivial⟩ success⟩
  intro _
  refine ⟨le_capacity _ fits, ?_⟩
  have settled := render_settled (Buffer.new.staleAfter RequestText.sample.render) []
    RequestText.sample_wellFormed RequestText.sample_short
  change RequestSettled _ (Buffer.new.contents ++ _)
  rwa [Buffer.new_contents, List.nil_append, ← List.append_nil RequestText.sample.render]

/-- The request `A B C` with one header, whose value has `count` bytes. -/
def RequestText.padded (letter : Byte) (count : Nat) : RequestText :=
  { method := [letter]
    url := [66]
    version := [67]
    headers := [([107], List.replicate count 120)] }

theorem padded_wellFormed {letter : Byte} (count : Nat) (visible : ¬ space <:+: [letter])
    (inLine : ¬ crlf <:+: [letter]) : (RequestText.padded letter count).WellFormed := by
  have value : ¬ crlf <:+: List.replicate count 120 := by
    intro occurs
    have member : (13 : Byte) ∈ List.replicate count 120 := occurs.subset (by decide)
    exact absurd (List.eq_of_mem_replicate member) (by decide)
  have key : ¬ crlf <:+: [107] ∧ ¬ colonSpace <:+: [107] := by decide
  have url : ¬ space <:+: [66] ∧ ¬ crlf <:+: [66] := by decide
  have version : ¬ crlf <:+: [67] := by decide
  refine ⟨visible, inLine, url.1, url.2, version, ?_⟩
  intro header member
  rw [List.mem_singleton.mp member]
  exact ⟨key.1, key.2, value⟩

/-- The bytes behind the first one do not depend on it. -/
private theorem padded_render (count : Nat) :
    ∃ rest : Bytes, rest.length = count + 13 ∧
      ∀ letter, (RequestText.padded letter count).render = letter :: rest := by
  refine ⟨space ++ [66] ++ space ++ [67] ++ crlf ++
    ([107] ++ colonSpace ++ List.replicate count 120 ++ crlf) ++ crlf, ?_, ?_⟩
  · simp only [List.length_append, List.length_replicate, colonSpace, crlf, space,
      List.length_cons, List.length_nil]
    omega
  · intro letter
    simp only [RequestText.render, RequestText.statusLine, RequestText.headerLine,
      RequestText.padded, List.flatMap_cons, List.flatMap_nil, List.append_nil, List.append_assoc,
      List.cons_append, List.nil_append]

/-- A read into a full buffer without unread bytes replaces its first byte and keeps
the others behind the write position. -/
private theorem socketRead_full {old : Byte} {rest : Bytes} {full : Buffer} (byte : Byte)
    (data : full.data = old :: rest) (consumed : full.readIndex = full.writeIndex)
    (filled : full.writeIndex = full.data.length) :
    full.socketRead (some [byte]) =
      .ok (1, { data := byte :: rest, readIndex := 0, writeIndex := 1 }) := by
  have room : full.writeable = 0 := by
    unfold Buffer.writeable
    rw [filled, sizeSub_of_le (Nat.le_refl _), Nat.sub_self]
  have unread : full.readable = 0 := by
    unfold Buffer.readable
    rw [consumed, sizeSub_of_le (Nat.le_refl _), Nat.sub_self]
  have spare : full.spare = rest.length + 1 := by
    change full.readIndex = _
    rw [consumed, filled, data, List.length_cons]
  have made : full.makeRoom 1 = .ok { data := old :: rest, readIndex := 0, writeIndex := 0 } := by
    unfold Buffer.makeRoom
    rw [room, if_neg (by decide), spare, if_pos (Nat.le_add_left 1 _), unread, data]
    rfl
  have size : sizeOfInt (intOfSize 1) = 1 := sizeOfInt_intOfSize (by decide)
  have appended : full.append (some [byte]) (intOfSize 1) =
      .ok { data := byte :: rest, readIndex := 0, writeIndex := 1 } := by
    have inside : 1 ≤ [byte].length ∧ 0 + 1 ≤ (old :: rest).length :=
      ⟨Nat.le_refl _, Nat.le_add_left 1 _⟩
    unfold Buffer.append
    rw [size, made]
    simp only [ok_bind, inside, and_self, ↓reduceIte]
    rfl
  have same : ({ full with
      data := overwrite full.data full.writeIndex ([byte].take full.writeable)
      writeIndex := full.data.length } : Buffer) = full := by
    rw [room, List.take_zero, overwrite_nil, ← filled]
  unfold Buffer.socketRead
  simp only []
  rw [if_neg (by rw [room]; exact Nat.not_succ_le_zero 0), same, room]
  simp only [List.drop_zero, List.length_singleton, Nat.sub_zero]
  rw [appended]
  rfl

/-- One byte arrives in a buffer that is full and consumed. -/
private theorem padded_stale {count : Nat} (fill : count + 14 = initBufferSize) :
    ∃ fuel final,
      run (httpStep fuel) (.established 0 0 9)
        [.read (some (RequestText.padded 65 count).render) (.answering (.wrote 58)),
          .read (some [90]) (.answering (.wrote 58))] = .ok final ∧
      (RequestText.padded 65 count).render.length ≤ Buffer.new.capacity ∧
      ¬ final.inputBuffer.Valid := by
  have letters : (¬ space <:+: [65] ∧ ¬ crlf <:+: [65]) ∧ ¬ space <:+: [90] ∧ ¬ crlf <:+: [90] := by
    decide
  obtain ⟨rest, width, shape⟩ := padded_render count
  have size : ∀ letter, (RequestText.padded letter count).render.length = initBufferSize := by
    intro letter
    rw [shape, List.length_cons, width]
    exact fill
  have short : ∀ letter, (RequestText.padded letter count).Short := by
    intro letter
    apply short_of_length
    rw [size]
    decide
  have keeps : ∀ letter, (RequestText.padded letter count).parsed.closeConnection = .ok false :=
    fun letter => rfl
  obtain ⟨firstFuel, middle, first, ready, input⟩ := established_render
    (padded_wellFormed count letters.1.1 letters.1.2) (short 65) (Nat.le_of_eq (size 65)) (keeps 65)
  have data : middle.inputBuffer.data = 65 :: rest := by
    rw [input]
    change (RequestText.padded 65 count).render ++ List.replicate _ 0 = _
    rw [size, Nat.sub_self, List.replicate_zero, List.append_nil, shape]
  have writeIndex : middle.inputBuffer.writeIndex = (RequestText.padded 65 count).render.length := by
    rw [input]
    rfl
  have readIndex : middle.inputBuffer.readIndex = (RequestText.padded 65 count).render.length := by
    rw [input]
    exact Nat.zero_add _
  have read := socketRead_full 90 data (readIndex.trans writeIndex.symm) (by
    rw [writeIndex, data, shape])
  have unread : ({ data := 90 :: rest, readIndex := 0, writeIndex := 1 } : Buffer).unread =
      (RequestText.padded 90 count).render ++ [] := by
    rw [List.append_nil, shape]
    rfl
  have returns := parse_render (padded_wellFormed count letters.2.1 letters.2.2) (short 90) unread
  obtain ⟨secondFuel, final, second⟩ := httpStep_returns ready (List.cons_ne_nil 90 []) read returns
    (unsent_storable _ (small_wire (.wrote 58) _) _) (keeps 90)
  have success := (run_cons (httpStep_mono first (Nat.le_max_left firstFuel secondFuel)) _).trans
    ((run_cons (httpStep_mono second (Nat.le_max_right firstFuel secondFuel)) []).trans rfl)
  refine ⟨_, final, success, le_capacity _ (Nat.le_of_eq (size 65)), ?_⟩
  obtain ⟨sent, closes, handled⟩ := httpStep_handled ready.watched ready.request
    (List.cons_ne_nil 90 []) read returns second
  rw [handled.inputBuffer]
  intro valid
  have ordered := valid.ordered
  change 0 + (RequestText.padded 90 count).render.length ≤ 1 at ordered
  rw [size] at ordered
  exact absurd ordered (by decide)

/-- After a request that fills the buffer a single byte makes the parser take a second
request from bytes the first one has consumed. -/
theorem receive_unconfined :
    ∃ fuel final,
      run (httpStep fuel) (.established 0 0 9)
        [.read (some (RequestText.padded 65 65522).render) (.answering (.wrote 58)),
          .read (some [90]) (.answering (.wrote 58))] = .ok final ∧
      (RequestText.padded 65 65522).render.length ≤ Buffer.new.capacity ∧
      ¬ final.inputBuffer.Valid :=
  padded_stale rfl

end Yolanda.App
