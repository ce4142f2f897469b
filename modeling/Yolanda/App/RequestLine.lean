import Yolanda.App.Grammar
import Yolanda.App.HttpServer
import Yolanda.Foundation.Lines

/-! What becomes of a request line that is not one. `process_status_line` asserts the two
spaces, and `parse_http_request` knows no other value than 1. -/

namespace Yolanda.App

open Foundation

/-- The first complete line among the bytes does not have two spaces. -/
def MalformedLine (text : Bytes) : Prop :=
  ∃ line rest, text = line ++ crlf ++ rest ∧ ¬ crlf <:+: line ∧
    ∀ method url version, line ≠ method ++ space ++ url ++ space ++ version

/-- The bytes start with a complete request. -/
def CompleteRequest (text : Bytes) : Prop :=
  ∃ message, RequestMessage anyLength message ∧ message <+: text

/-- `parse_http_request` returns `ok`. -/
def ParseReturns (ok : Int) (input : Buffer) (request : HttpRequest) : Prop :=
  ∃ fuel final, parseHttpRequest fuel input request = .ok (ok, final)

/-- `http_onMessage` returns after it has sent the 400 response and shut the connection
down. -/
def SendsBadRequest (turn : Turn) (connection : TcpConnection) : Prop :=
  ∃ fuel next calls refused queued, httpOnMessage fuel turn connection = .ok next ∧
    next.trace = connection.trace ++ calls ∧
    List.Sublist [.send badRequest refused, .shutdown queued] calls

/-- A malformed request line is rejected with 0 and the 400 response, any other complete
request is accepted with 1. -/
structure RejectsMalformed (input : Buffer) (request : HttpRequest) : Prop where
  rejected : MalformedLine input.contents → ParseReturns 0 input request
  answered : MalformedLine input.contents → ∀ turn connection,
    connection.inputBuffer = input → connection.request = some request →
      SendsBadRequest turn connection
  accepted : ¬ MalformedLine input.contents → CompleteRequest input.contents →
    ParseReturns 1 input request

/-- Lines with `": "` that an `int` keeps, and then one whose first bytes, as many as the
`int` tells, have no `": "`. -/
inductive EndsHeaders : Bytes → Prop where
  | last {line rest : Bytes} {part : Nat} (clear : ¬ crlf <:+: line)
      (size : intOfSize line.length = part) (plain : ¬ colonSpace <:+: line.take part) :
      EndsHeaders (line ++ crlf ++ rest)
  | more {line rest : Bytes} (clear : ¬ crlf <:+: line) (short : line.length < 2 ^ 31)
      (colon : colonSpace <:+: line) (others : EndsHeaders rest) :
      EndsHeaders (line ++ crlf ++ rest)

/-- The `int` that holds the size of the request line is not 0 and moves `readIndex` to
headers that end. -/
def LineLeads (input : Buffer) : Prop :=
  ∀ line rest, input.unread = line ++ crlf ++ rest → ¬ crlf <:+: line →
    intOfSize line.length ≠ 0 ∧ EndsHeaders (input.skip (intOfSize line.length)).unread

section Headers

variable {input : Buffer} {request : HttpRequest} {line rest : Bytes} {final : Parsing}

theorem Buffer.skip_data (buffer : Buffer) (size : Int) : (buffer.skip size).data = buffer.data :=
  rfl

theorem intOfSize_le {part : Nat} (size : intOfSize line.length = part) :
    part ≤ line.length := by
  obtain ⟨wraps, whole, least, most⟩ := intOfSize_wraps line.length
  omega

theorem returns_done (finished : request.curState = .done) :
    parseLoop.Returns ⟨input, request⟩ ⟨input, request⟩ :=
  ⟨0, Loop.run_done (by simp [parseLoop, finished]) 0⟩

/-- Headers that end take the parser to `REQUEST_DONE`. -/
theorem EndsHeaders.returns (ends : EndsHeaders input.unread)
    (waiting : request.curState = .headers) (bounded : input.data.length < 2 ^ 63) :
    ∃ final, parseLoop.Returns ⟨input, request⟩ final := by
  generalize unread : input.unread = text at ends
  induction ends generalizing input request with
  | last clear size plain =>
    have step := step_part_last waiting unread clear size (intOfSize_le size) bounded plain
    exact ⟨_, .of_step step (returns_done rfl)⟩
  | @more line rest clear short colon _ ih =>
    obtain ⟨offset, found⟩ := Option.ne_none_iff_exists'.mp fun missing =>
      search_eq_none.mp missing colon
    have step := step_header waiting unread clear short found
    have waitingNext : ({ request with
        headers := request.headers.emplace (line.take offset) (line.drop (offset + 2)) } :
          HttpRequest).curState = .headers := waiting
    have kept : (input.consume (line.length + 2)).data.length < 2 ^ 63 := bounded
    obtain ⟨final, returns⟩ := ih waitingNext kept (unread_line unread)
    exact ⟨final, .of_step step returns⟩

/-- The parser gets from `REQUEST_HEADERS` to `REQUEST_DONE` over headers that end only. -/
theorem endsHeaders_of_chain {start final : Parsing}
    (chain : Relation.ReflTransGen parseLoop.Step start final)
    (finished : final.request.curState = .done) (waiting : start.request.curState = .headers)
    (bounded : start.input.data.length < 2 ^ 63) : EndsHeaders start.input.unread := by
  have exits : parseLoop.done final = true := by simp [parseLoop, finished]
  induction chain using Relation.ReflTransGen.head_induction_on with
  | refl => cases waiting.symm.trans finished
  | @head state next step rest ih =>
    obtain ⟨input, request⟩ := state
    have returns : parseLoop.Returns ⟨input, request⟩ final :=
      Loop.returns_iff.mpr ⟨.head step rest, exits⟩
    have available : crlf <:+: input.unread := by
      by_contra missing
      have running : request.curState ≠ .done := by
        rw [show request.curState = .headers from waiting]
        decide
      exact not_returns_of_no_line running missing returns
    obtain ⟨offset, found⟩ := Option.ne_none_iff_exists'.mp fun missing =>
      search_eq_none.mp missing available
    have clear := search_clear crlf_borderless found
    have unread := search_split found
    change EndsHeaders input.unread
    generalize input.unread.take offset = line at clear unread
    generalize input.unread.drop (offset + crlf.length) = behind at unread
    rw [unread]
    by_cases short : line.length < 2 ^ 31
    · by_cases colon : colonSpace <:+: line
      · obtain ⟨place, met⟩ := Option.ne_none_iff_exists'.mp fun missing =>
          search_eq_none.mp missing colon
        have same := step.unique (step_header waiting unread clear short met)
        subst next
        have others := ih waiting bounded
        rw [unread_line unread] at others
        exact .more clear short colon others
      · refine .last clear (intOfSize_of_lt short) ?_
        rwa [List.take_length]
    · rcases intOfSize_long (Nat.le_of_not_lt short) with
        negative | ⟨part, wraps, size, positive, length⟩
      · exact absurd returns (not_returns_of_negative waiting unread clear negative bounded)
      · refine .last clear size fun colon => ?_
        exact not_returns_of_long_header waiting unread clear size positive length bounded colon
          returns

/-- Over a request line the parser gets exactly when its size leads to headers that end. -/
theorem returns_line_iff {method url version : Bytes} (waiting : request.curState = .status)
    (unread : input.unread = line ++ crlf ++ rest) (clear : ¬ crlf <:+: line)
    (split : SplitsAs line method url version) (bounded : input.data.length < 2 ^ 63) :
    (∃ final, parseLoop.Returns ⟨input, request⟩ final) ↔ intOfSize line.length ≠ 0 ∧
      EndsHeaders (input.skip (intOfSize line.length)).unread := by
  have entered : ({ request.withLine method url version with
      curState := .headers } : HttpRequest).curState = .headers := rfl
  have kept : (input.skip (intOfSize line.length)).data.length < 2 ^ 63 := by
    rwa [Buffer.skip_data]
  constructor
  · rintro ⟨final, returns⟩
    have size : intOfSize line.length ≠ 0 := fun zero =>
      not_returns_of_zero waiting unread clear split zero returns
    have next := returns.step (step_long_line waiting unread clear split size)
    obtain ⟨chain, finished⟩ := Loop.returns_iff.mp next
    have ends := endsHeaders_of_chain chain (by simpa [parseLoop] using finished) entered kept
    exact ⟨size, ends⟩
  · rintro ⟨size, ends⟩
    have step := step_long_line waiting unread clear split size
    obtain ⟨final, returns⟩ := ends.returns entered kept
    exact ⟨final, .of_step step returns⟩

/-- A header section whose lines are short ends. -/
theorem HeaderSection.endsHeaders {text : Bytes} (headers : HeaderSection intLength text) :
    EndsHeaders (text ++ rest) := by
  induction headers with
  | empty =>
    have clear : ¬ crlf <:+: ([] : Bytes) := by decide
    have plain : ¬ colonSpace <:+: ([] : Bytes).take 0 := by decide
    exact .last clear rfl plain
  | @line line others clear fits colon _ ih =>
    rw [List.append_assoc]
    exact .more clear fits colon ih

/-- With short lines the sizes do no harm. -/
theorem StartsWithMessage.lineLeads (starts : StartsWithMessage input.unread) :
    LineLeads input := by
  obtain ⟨text, message, rest, unread⟩ := starts
  cases message with
  | @line first method url version others clear fits split headers =>
    rw [List.append_assoc] at unread
    intro line behind same lineClear
    obtain ⟨rfl, rfl⟩ := clear_split_unique crlf_borderless lineClear clear
      (same.symm.trans unread.symm)
    have positive := split.nonempty
    rw [intOfSize_of_lt fits, skip_ofNat, unread_line same]
    exact ⟨by omega, headers.endsHeaders⟩

end Headers

section Calls

variable {input : Buffer} {request : HttpRequest}

/-- The value of `parse_http_request` is 1 whenever there is one. -/
theorem parseReturns_iff {ok : Int} :
    ParseReturns ok input request ↔ ok = 1 ∧ ∃ final, parseLoop.Returns ⟨input, request⟩ final := by
  constructor
  · rintro ⟨fuel, final, success⟩
    obtain ⟨last, run, value⟩ := bind_eq_ok.mp success
    cases value
    exact ⟨rfl, final, fuel, run⟩
  · rintro ⟨rfl, final, fuel, run⟩
    refine ⟨fuel, final, ?_⟩
    rw [parseHttpRequest, run]
    rfl

/-- A malformed request line ends the process. -/
theorem MalformedLine.aborts (malformed : MalformedLine input.contents) (valid : input.Valid)
    (waiting : request.curState = .status) (fuel : Nat) :
    parseHttpRequest (fuel + 1) input request = .error .assertion := by
  obtain ⟨line, rest, contents, clear, unsplit⟩ := malformed
  have unread := valid.unread_line_stale contents
  have running : parseLoop.done ⟨input, request⟩ = false := by simp [parseLoop, waiting]
  rcases processStatusLine_cases line request with ⟨method, url, version, split⟩ | fails
  · exact absurd split.split (unsplit method url version)
  · have body := body_status_error waiting unread clear fails
    simp only [parseHttpRequest, Loop.run, running, body]
    rfl

/-- A complete request is accepted exactly when its sizes lead to its end. -/
theorem CompleteRequest.returns_iff (complete : CompleteRequest input.contents)
    (valid : input.Valid) (waiting : request.curState = .status)
    (bounded : input.data.length < 2 ^ 63) :
    (∃ final, parseLoop.Returns ⟨input, request⟩ final) ↔ LineLeads input := by
  obtain ⟨message, ⟨clear, _, split, headers⟩, behind, contents⟩ := complete
  rename_i line method url version others
  rw [List.append_assoc] at contents
  have unread := valid.unread_line_stale contents.symm
  rw [returns_line_iff waiting unread clear split bounded]
  constructor
  · intro leads other rest same otherClear
    obtain ⟨rfl, rfl⟩ := clear_split_unique crlf_borderless otherClear clear
      (same.symm.trans unread)
    exact leads
  · intro leads
    exact leads _ _ unread clear

/-- Requests are told apart exactly where no request line is malformed and the sizes of a
complete request lead to its end. -/
theorem rejects_malformed_iff (valid : input.Valid) (waiting : request.curState = .status)
    (bounded : input.data.length < 2 ^ 63) :
    RejectsMalformed input request ↔
      ¬ MalformedLine input.contents ∧ (CompleteRequest input.contents → LineLeads input) := by
  constructor
  · intro rejects
    have formed : ¬ MalformedLine input.contents := by
      intro malformed
      obtain ⟨value, _⟩ := parseReturns_iff.mp (rejects.rejected malformed)
      cases value
    refine ⟨formed, fun complete => ?_⟩
    obtain ⟨_, returns⟩ := parseReturns_iff.mp (rejects.accepted formed complete)
    exact (complete.returns_iff valid waiting bounded).mp returns
  · rintro ⟨formed, leads⟩
    refine ⟨fun malformed => absurd malformed formed,
      fun malformed => absurd malformed formed, fun _ complete => ?_⟩
    have returns := (complete.returns_iff valid waiting bounded).mpr (leads complete)
    exact parseReturns_iff.mpr ⟨rfl, returns⟩

end Calls

private theorem request_bounded : (Buffer.holding (ascii "A B C\r\n\r\n")).data.length < 2 ^ 63 := by
  have length : (Buffer.holding (ascii "A B C\r\n\r\n")).data.length = 9 := by decide
  omega

theorem rejects_malformed_sample :
    RejectsMalformed (.holding (ascii "A B C\r\n\r\n")) .new ↔
      ¬ MalformedLine (Buffer.holding (ascii "A B C\r\n\r\n")).contents ∧
        (CompleteRequest (Buffer.holding (ascii "A B C\r\n\r\n")).contents →
          LineLeads (.holding (ascii "A B C\r\n\r\n"))) :=
  rejects_malformed_iff (Buffer.holding_valid _) rfl request_bounded

/-- A request line with one space is not answered at all. -/
theorem one_space_aborts :
    MalformedLine (Buffer.holding (ascii "GET /\r\n\r\n")).contents ∧
      parseHttpRequest 1 (.holding (ascii "GET /\r\n\r\n")) .new = .error .assertion ∧
      ¬ RejectsMalformed (.holding (ascii "GET /\r\n\r\n")) .new := by
  have malformed : MalformedLine (Buffer.holding (ascii "GET /\r\n\r\n")).contents := by
    refine ⟨ascii "GET /", crlf, by decide, by decide, ?_⟩
    intro method url version same
    have spaces := congrArg (List.count 32) same
    have one : (ascii "GET /").count 32 = 1 := by decide
    simp only [one, space, List.count_append, List.count_singleton_self] at spaces
    omega
  refine ⟨malformed, malformed.aborts (Buffer.holding_valid _) rfl 0, ?_⟩
  intro rejects
  obtain ⟨value, _⟩ := parseReturns_iff.mp (rejects.rejected malformed)
  cases value

end Yolanda.App
