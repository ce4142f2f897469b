import Yolanda.App.BufferInvariant
import Yolanda.App.ParserStep

/-! Requests as texts. Rendering a request and parsing it back gives the request,
also when many of them stand in one buffer. -/

namespace Yolanda.App

open Foundation

/-- A request as its sender writes it: a status line and a list of headers. -/
structure RequestText where
  method : Bytes
  url : Bytes
  version : Bytes
  headers : List (Bytes × Bytes)

namespace RequestText

def statusLine (text : RequestText) : Bytes :=
  text.method ++ space ++ text.url ++ space ++ text.version

def headerLine (header : Bytes × Bytes) : Bytes :=
  header.1 ++ colonSpace ++ header.2

/-- `method SP url SP version CRLF (key ": " value CRLF)* CRLF` -/
def render (text : RequestText) : Bytes :=
  text.statusLine ++ crlf ++ text.headers.flatMap (fun header => headerLine header ++ crlf) ++ crlf

structure HeaderWellFormed (header : Bytes × Bytes) : Prop where
  key_crlf : ¬ crlf <:+: header.1
  key_colon : ¬ colonSpace <:+: header.1
  value_crlf : ¬ crlf <:+: header.2

structure WellFormed (text : RequestText) : Prop where
  method_space : ¬ space <:+: text.method
  method_crlf : ¬ crlf <:+: text.method
  url_space : ¬ space <:+: text.url
  url_crlf : ¬ crlf <:+: text.url
  version_crlf : ¬ crlf <:+: text.version
  headers : ∀ header ∈ text.headers, HeaderWellFormed header

instance (header : Bytes × Bytes) : Decidable (HeaderWellFormed header) :=
  decidable_of_iff (¬ crlf <:+: header.1 ∧ ¬ colonSpace <:+: header.1 ∧ ¬ crlf <:+: header.2)
    ⟨fun ⟨key, colon, value⟩ => ⟨key, colon, value⟩,
      fun wellFormed => ⟨wellFormed.key_crlf, wellFormed.key_colon, wellFormed.value_crlf⟩⟩

/-- Every line fits the `int` in which the parser keeps its size. -/
structure Short (text : RequestText) : Prop where
  status : text.statusLine.length < 2 ^ 31
  headers : ∀ header ∈ text.headers, (headerLine header).length < 2 ^ 31

/-- A parsed request holds exactly the fields of the text. Of several headers with
one key the first counts. -/
structure Matches (text : RequestText) (request : HttpRequest) : Prop where
  method : request.method = text.method
  url : request.url = text.url
  version : request.version = text.version
  headers : ∀ key, request.headers.lookup key = text.headers.lookup key

theorem HeaderWellFormed.line_clear (wellFormed : HeaderWellFormed header) :
    ¬ crlf <:+: headerLine header := by
  have value : ¬ crlf <:+: [] ++ (32 :: header.2) :=
    not_infix_append_cons (by decide) (by decide) wellFormed.value_crlf
  have line : ¬ crlf <:+: header.1 ++ 58 :: (32 :: header.2) :=
    not_infix_append_cons (by decide) wellFormed.key_crlf value
  simpa [headerLine, colonSpace] using line

theorem headerLine_key (header : Bytes × Bytes) :
    (headerLine header).take header.1.length = header.1 := by
  rw [headerLine, List.append_assoc, List.take_left]

theorem headerLine_value (header : Bytes × Bytes) :
    (headerLine header).drop (header.1.length + 2) = header.2 := by
  have size : header.1.length + 2 = (header.1 ++ colonSpace).length := by simp [colonSpace]
  rw [headerLine, size, List.drop_left]

theorem HeaderWellFormed.search_colon (wellFormed : HeaderWellFormed header) :
    search colonSpace (headerLine header) = some header.1.length :=
  search_append colonSpace_borderless wellFormed.key_colon header.2

theorem WellFormed.splits (wellFormed : WellFormed text) :
    SplitsAs text.statusLine text.method text.url text.version :=
  ⟨rfl, wellFormed.method_space, wellFormed.url_space⟩

theorem WellFormed.line_clear (wellFormed : WellFormed text) : ¬ crlf <:+: text.statusLine := by
  have tail : ¬ crlf <:+: text.url ++ 32 :: text.version :=
    not_infix_append_cons (by decide) wellFormed.url_crlf wellFormed.version_crlf
  have line : ¬ crlf <:+: text.method ++ 32 :: (text.url ++ 32 :: text.version) :=
    not_infix_append_cons (by decide) wellFormed.method_crlf tail
  simpa [statusLine, space] using line

end RequestText

open RequestText

/-- The header map after a list of header lines has been added to it. -/
def Headers.addAll (headers : Headers) (lines : List (Bytes × Bytes)) : Headers :=
  lines.foldl (fun headers line => headers.emplace line.1 line.2) headers

theorem Headers.lookup_addAll (headers : Headers) (lines : List (Bytes × Bytes)) (key : Bytes) :
    (headers.addAll lines).lookup key = (headers.lookup key).or (lines.lookup key) := by
  induction lines generalizing headers with
  | nil => simp [addAll]
  | cons line lines ih =>
    have first : headers.addAll (line :: lines) =
        Headers.addAll (headers.emplace line.1 line.2) lines := rfl
    rw [first, ih, lookup_emplace, Option.or_assoc, List.lookup_cons]
    by_cases same : key = line.1
    · subst key
      simp
    · have differs : (key == line.1) = false := beq_eq_false_iff_ne.mpr same
      simp [same, differs]

/-- The lines of the header block and the empty line that ends it. -/
theorem parse_headers (lines : List (Bytes × Bytes)) {input : Buffer} {request : HttpRequest}
    (wellFormed : ∀ line ∈ lines, HeaderWellFormed line)
    (short : ∀ line ∈ lines, (headerLine line).length < 2 ^ 31)
    (waiting : request.curState = .headers)
    (unread : input.unread =
      lines.flatMap (fun line => headerLine line ++ crlf) ++ crlf ++ rest) :
    parseLoop.Returns ⟨input, request⟩
      ⟨input.consume ((lines.flatMap fun line => headerLine line ++ crlf).length + 2),
        { request with headers := request.headers.addAll lines, curState := .done }⟩ := by
  induction lines generalizing input request with
  | nil =>
    have shape : input.unread = [] ++ crlf ++ rest := by simpa using unread
    have last := step_last waiting shape (by decide) (by simp) (by decide)
    exact .of_step last ⟨0, Loop.run_done (by simp [parseLoop]) 0⟩
  | cons line lines ih =>
    have lineWell := wellFormed line (List.mem_cons_self ..)
    have shape : input.unread = headerLine line ++ crlf ++
        (lines.flatMap (fun line => headerLine line ++ crlf) ++ crlf ++ rest) := by
      rw [unread]
      simp only [List.flatMap_cons, List.append_assoc]
    have first := step_header waiting shape lineWell.line_clear
      (short line (List.mem_cons_self ..)) lineWell.search_colon
    rw [headerLine_key, headerLine_value] at first
    have waitingNext : ({ request with
        headers := request.headers.emplace line.1 line.2 } : HttpRequest).curState = .headers :=
      waiting
    have others := ih (fun other member => wellFormed other (List.mem_cons_of_mem _ member))
      (fun other member => short other (List.mem_cons_of_mem _ member))
      waitingNext (unread_line shape)
    refine .of_step first ?_
    rw [Buffer.consume_consume] at others
    have size : (headerLine line).length + 2 +
        ((lines.flatMap fun line => headerLine line ++ crlf).length + 2) =
        ((line :: lines).flatMap fun line => headerLine line ++ crlf).length + 2 := by
      simp [crlf]
      omega
    rw [size] at others
    exact others

/-- The request that parsing the text gives. -/
def RequestText.parsed (text : RequestText) : HttpRequest :=
  { version := text.version
    method := text.method
    url := text.url
    curState := .done
    headers := Headers.addAll ∅ text.headers }

theorem RequestText.parsed_matches (text : RequestText) : text.Matches text.parsed := by
  refine ⟨rfl, rfl, rfl, fun key => ?_⟩
  change (Headers.addAll ∅ text.headers).lookup key = _
  rw [Headers.lookup_addAll, AList.lookup_empty, Option.none_or]

/-- Parsing consumes exactly the rendered request, whatever follows it. -/
theorem parse_render {text : RequestText} {input : Buffer} (wellFormed : text.WellFormed)
    (short : text.Short) (unread : input.unread = text.render ++ rest) :
    parseLoop.Returns ⟨input, .new⟩ ⟨input.consume text.render.length, text.parsed⟩ := by
  have shape : input.unread = text.statusLine ++ crlf ++
      (text.headers.flatMap (fun line => headerLine line ++ crlf) ++ crlf ++ rest) := by
    rw [unread, RequestText.render]
    simp only [List.append_assoc]
  have fresh : HttpRequest.new.curState = .status := rfl
  have first := step_status fresh shape wellFormed.line_clear short.status wellFormed.splits
  have waiting : ({ HttpRequest.new.withLine text.method text.url text.version with
      curState := .headers } : HttpRequest).curState = .headers := rfl
  have block := parse_headers text.headers wellFormed.headers short.headers waiting
    (unread_line shape)
  have size : text.statusLine.length + 2 +
      ((text.headers.flatMap fun line => headerLine line ++ crlf).length + 2) =
      text.render.length := by
    simp only [RequestText.render, List.length_append, crlf, List.length_cons, List.length_nil]
    omega
  have fields : ({ HttpRequest.new.withLine text.method text.url text.version with
      headers := Headers.addAll ∅ text.headers, curState := .done } : HttpRequest) =
      text.parsed := by
    simp [HttpRequest.withLine, HttpRequest.new, RequestText.parsed]
  rw [Buffer.consume_consume, size] at block
  rw [← fields]
  exact .of_step first block

/-- Alternate `parse_http_request` with `http_request::reset`, `count` times. -/
def parseRequests (fuel : Nat) : Nat → Parsing → Except Fault (List HttpRequest × Parsing)
  | 0, state => .ok ([], state)
  | count + 1, state => do
    let (_, parsed) ← parseHttpRequest fuel state.input state.request
    let (requests, final) ← parseRequests fuel count ⟨parsed.input, parsed.request.reset⟩
    return (parsed.request :: requests, final)

theorem parseHttpRequest_ok {fuel : Nat} {input : Buffer} {request : HttpRequest} {code : Int}
    {final : Parsing} :
    parseHttpRequest fuel input request = .ok (code, final) ↔
      code = 1 ∧ parseLoop.run fuel ⟨input, request⟩ = .ok final := by
  unfold parseHttpRequest
  cases parseLoop.run fuel ⟨input, request⟩ with
  | error fault => simp
  | ok result => simp [pure, Except.pure, eq_comm]

/-- The sample request of the parser's own test. -/
def RequestText.sample : RequestText :=
  { method := ascii "GET"
    url := ascii "/"
    version := ascii "HTTP/1.1"
    headers := [(ascii "Host", ascii "localhost:43211"), (ascii "User-Agent", ascii "curl/7.54.0"),
      (ascii "Accept", ascii "*/*")] }

theorem RequestText.sample_wellFormed : RequestText.sample.WellFormed :=
  ⟨by decide, by decide, by decide, by decide, by decide, by decide⟩

theorem RequestText.sample_short : RequestText.sample.Short :=
  ⟨by decide, by decide⟩

/-- A buffer that holds exactly the given bytes. -/
def Buffer.holding (bytes : Bytes) : Buffer :=
  { data := bytes, readIndex := 0, writeIndex := bytes.length }

theorem Buffer.holding_valid (bytes : Bytes) : (Buffer.holding bytes).Valid :=
  ⟨Nat.zero_le _, Nat.le_refl _⟩

theorem Buffer.holding_contents (bytes : Bytes) : (Buffer.holding bytes).contents = bytes := by
  simp [holding, contents, window]

end Yolanda.App
