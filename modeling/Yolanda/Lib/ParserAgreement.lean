import Yolanda.Lib.HeaderTable

/-! The request parsers of both libraries side by side, round by round, on the same bytes. The
one of the C++ library searches the whole string of its buffer for a line end, so what is behind
the readable bytes counts as well. -/

namespace Yolanda.Lib

open Foundation
open App (HttpRequestState Headers RequestText space colonSpace crlf)

/-- Why `parse_http_request` does not return. -/
inductive NoReturn where
  | stopped (stop : Stop)
  | unfinished
  deriving DecidableEq, Repr

/-- The loop of `parse_http_request`. -/
def parseLoop : Loop Parsing NoReturn where
  done parsing := parsing.request.currentState = .done
  body parsing := parsing.parseIteration.mapError .stopped
  unfinished := .unfinished

/-- `parse_http_request`: the value of `ok`, with what it leaves. -/
def parseHttpRequest (fuel : Nat) (parsing : Parsing) : Except NoReturn (Int × Parsing) := do
  let final ← parseLoop.run fuel parsing
  return (1, final)

/-- Alternate `parse_http_request` with `http_request_reset`, `count` times. -/
def parseRequests (fuel : Nat) : Nat → Parsing → Except NoReturn (List RequestBlocks × Parsing)
  | 0, parsing => .ok ([], parsing)
  | count + 1, parsing => do
    let (_, parsed) ← parseHttpRequest fuel parsing
    let (requests, final) ← parseRequests fuel count
      { parsed with request := parsed.request.reset }
    return (parsed.request :: requests, final)

/-- Both processes abort on an assertion, or both loops still run. -/
inductive SameEnd : NoReturn → Fault → Prop
  | assertion : SameEnd (.stopped .assertion) .assertion
  | unfinished : SameEnd .unfinished .unfinished

/-- The requests of both libraries after the same lines: the strings of the C library are copies of
those of the C++ library, and the headers have gone to the table as far as it has entries. -/
structure SameRequest (lines : List (Bytes × Bytes)) (request : RequestBlocks)
    (other : App.HttpRequest) : Prop where
  state : request.currentState = other.curState
  unset : other.curState = .status → other.method = [] ∧ other.url = [] ∧ other.version = []
  method : other.curState ≠ .status → request.method = some (unterminated other.method)
  url : other.curState ≠ .status → request.url = some (unterminated other.url)
  version : other.curState ≠ .status → request.version = some (unterminated other.version)
  headers : other.headers = Headers.addAll ∅ lines
  number : request.requestHeadersNumber = lines.length
  capacity : request.requestHeaders.cells.length = headerCapacity
  entries : ∀ index line, index < headerCapacity → lines[index]? = some line →
    request.requestHeaders.get index = some ⟨terminated line.1, terminated line.2⟩

/-- The bytes behind the readable ones complete no line end. -/
def Quiet (contents stale : Bytes) : Prop :=
  ∀ count, ¬ crlf <:+: contents.drop count → ¬ crlf <:+: contents.drop count ++ stale

/-- Both parsers between two rounds: the same bytes are left to them. -/
structure SameParsing (stale : Bytes) (parsing : Parsing) (other : App.Parsing) : Prop where
  valid : parsing.input.Valid
  unread : other.input.unread = parsing.input.contents ++ stale
  quiet : Quiet parsing.input.contents stale
  request : ∃ lines, SameRequest lines parsing.request other.request

theorem Quiet.drop {contents stale : Bytes} (quiet : Quiet contents stale) (count : Nat) :
    Quiet (contents.drop count) stale := by
  intro more
  rw [List.drop_drop]
  exact quiet (count + more)

/-- Bytes without a line feed complete no line end. -/
theorem quiet_of_no_feed {contents stale : Bytes} (absent : 10 ∉ stale) : Quiet contents stale := by
  intro count clear occurs
  obtain ⟨before, after, shape⟩ := occurs
  rcases List.append_eq_append_iff.mp shape with ⟨middle, whole, _⟩ | ⟨middle, whole, rest⟩
  · exact clear ⟨before, middle, whole.symm⟩
  · rcases List.eq_nil_or_concat middle with rfl | ⟨front, last, rfl⟩
    · rw [List.append_nil] at whole
      exact clear ⟨before, [], by rw [List.append_nil, whole]⟩
    · rw [List.concat_eq_append, ← List.append_assoc] at whole
      have feed : last = 10 := by
        have ends := congrArg List.getLast? whole
        simpa [crlf] using ends.symm
      rw [rest, feed] at absent
      exact absent (by simp)

section Round

variable {stale : Bytes} {parsing : Parsing} {other : App.Parsing} {lines : List (Bytes × Bytes)}
  {request : RequestBlocks} {second : App.HttpRequest}

theorem SameRequest.fresh (state : request.currentState = .status)
    (number : request.requestHeadersNumber = 0)
    (capacity : request.requestHeaders.cells.length = headerCapacity) :
    SameRequest [] request .new where
  state := state
  unset := fun _ => ⟨rfl, rfl, rfl⟩
  method := fun running => absurd rfl running
  url := fun running => absurd rfl running
  version := fun running => absurd rfl running
  headers := rfl
  number := number
  capacity := capacity
  entries := fun _ _ _ found => nomatch found

/-- The fields of the request line are copied by both. -/
theorem SameRequest.withLine (same : SameRequest lines request second)
    (status : second.curState = .status) (line : Bytes) (methodEnd urlEnd : Nat) :
    SameRequest lines { Parsing.withLine request line methodEnd urlEnd with
        currentState := .headers }
      { second.withLine (line.take methodEnd) ((line.drop (methodEnd + 1)).take urlEnd)
          ((line.drop (methodEnd + 1)).drop (urlEnd + 1)) with
        curState := .headers } := by
  obtain ⟨method, url, version⟩ := same.unset status
  constructor
  · rfl
  · exact fun waits => nomatch waits
  · intro _
    simp only [Parsing.withLine, App.HttpRequest.withLine, method, List.append_nil]
  · intro _
    simp only [Parsing.withLine, App.HttpRequest.withLine, url, List.append_nil]
  · intro _
    simp only [Parsing.withLine, App.HttpRequest.withLine, version, List.append_nil,
      List.drop_drop, Nat.add_assoc]
  · exact same.headers
  · exact same.number
  · exact same.capacity
  · exact same.entries

/-- A header goes into the map of the one and the table of the other. -/
theorem SameRequest.addHeader (same : SameRequest lines request second)
    (running : second.curState = .headers) (line : Bytes × Bytes) :
    SameRequest (lines ++ [line])
      (request.addHeader ⟨terminated line.1, terminated line.2⟩)
      { second with headers := second.headers.emplace line.1 line.2 } := by
  have started : second.curState ≠ .status := by
    rw [running]
    decide
  constructor
  · exact same.state
  · exact fun waits => absurd waits started
  · exact fun _ => same.method started
  · exact fun _ => same.url started
  · exact fun _ => same.version started
  · rw [Headers.addAll, List.foldl_append]
    exact congrArg (fun headers : Headers => headers.emplace line.1 line.2) same.headers
  · rw [List.length_append, ← same.number]
    rfl
  · exact (Cells.length_put ..).trans same.capacity
  · intro index entry inside found
    by_cases room : lines.length < headerCapacity
    · have fits : request.requestHeadersNumber < request.requestHeaders.cells.length := by
        rw [same.number, same.capacity]
        exact room
      rw [RequestBlocks.addHeader, Cells.get_put fits, same.number]
      by_cases last : lines.length = index
      · subst last
        rw [List.getElem?_concat_length] at found
        rw [if_pos rfl, ← Option.some.inj found]
      · have bound := (List.getElem?_eq_some_iff.mp found).1
        rw [List.length_append, List.length_singleton] at bound
        rw [List.getElem?_append_left (by omega)] at found
        rw [if_neg last]
        exact same.entries index entry inside found
    · have outside : request.requestHeaders.cells.length ≤
          (request.requestHeadersNumber : Int) := by
        rw [same.number, same.capacity]
        exact Int.ofNat_le.mpr (Nat.le_of_not_lt room)
      rw [List.getElem?_append_left (by omega)] at found
      rw [RequestBlocks.addHeader, Cells.put_outside (.inr outside)]
      exact same.entries index entry inside found

/-- Both take the same number of bytes. -/
theorem SameParsing.advance (same : SameParsing stale parsing other) {count : Nat}
    (inside : count ≤ parsing.input.contents.length) (log : List Access)
    (requests : SameRequest lines request second) :
    SameParsing stale ⟨{ parsing.input with readIndex := parsing.input.readIndex + count },
      request, log⟩ ⟨other.input.consume count, second⟩ := by
  obtain ⟨valid, contents⟩ := same.valid.advance inside
  constructor
  · exact valid
  · rw [App.Buffer.unread_consume, same.unread, List.drop_append_of_le_length inside]
    exact congrArg (· ++ stale) contents.symm
  · exact contents ▸ same.quiet.drop count
  · exact ⟨lines, requests⟩

/-- A line that ends in the readable bytes is the same for both. -/
theorem SameParsing.line (same : SameParsing stale parsing other) {lineEnd : Nat}
    (found : search crlf parsing.input.contents = some lineEnd) :
    other.input.unread = parsing.input.contents.take lineEnd ++ crlf ++
        (parsing.input.contents.drop (lineEnd + 2) ++ stale) ∧
      ¬ crlf <:+: parsing.input.contents.take lineEnd ∧
      (parsing.input.contents.take lineEnd).length = lineEnd ∧
      lineEnd < 2 ^ 31 ∧ lineEnd + 2 ≤ parsing.input.contents.length := by
  have within := search_fits found
  have two : crlf.length = 2 := rfl
  have split := search_split found
  have width := same.valid.length_contents
  have small := same.valid.small
  have stored := same.valid.stored
  have start := same.valid.start
  rw [two] at split within
  refine ⟨?_, search_clear App.crlf_borderless found, ?_, by omega, within⟩
  · rw [same.unread]
    conv_lhs => rw [split]
    simp only [List.append_assoc]
  · rw [List.length_take]
    omega

theorem splitsAs_of_search {line : Bytes} {methodEnd urlEnd : Nat}
    (first : search space line = some methodEnd)
    (later : search space (line.drop (methodEnd + 1)) = some urlEnd) :
    App.SplitsAs line (line.take methodEnd) ((line.drop (methodEnd + 1)).take urlEnd)
      ((line.drop (methodEnd + 1)).drop (urlEnd + 1)) := by
  refine ⟨?_, search_clear App.space_borderless first, search_clear App.space_borderless later⟩
  have outer := search_split first
  have inner := search_split later
  have one : space.length = 1 := rfl
  rw [one] at outer inner
  conv_lhs => rw [outer, inner]
  simp only [List.append_assoc]

/-- A round in which a request line stands in front. -/
theorem SameParsing.requestLine (same : SameParsing stale parsing other) {lineEnd : Nat}
    (status : parsing.request.currentState = .status)
    (found : search crlf parsing.input.contents = some lineEnd) :
    EndAlike (SameParsing stale) SameEnd (parseLoop.body parsing) (App.parseLoop.body other) := by
  obtain ⟨lines, requests⟩ := same.request
  obtain ⟨unread, clear, width, short, inside⟩ := same.line found
  have waiting : other.request.curState = .status := requests.state ▸ status
  cases first : search space (parsing.input.contents.take lineEnd) with
  | none =>
    have missing : ∀ methodEnd, search space (parsing.input.contents.take lineEnd) =
        some methodEnd →
          search space ((parsing.input.contents.take lineEnd).drop (methodEnd + 1)) = none := by
      intro methodEnd there
      cases first.symm.trans there
    have aborts : App.processStatusLine (parsing.input.contents.take lineEnd) other.request =
        .error .assertion := by
      simp only [App.processStatusLine, first]
    rw [App.body_status_error waiting unread clear aborts]
    simp only [parseLoop, Parsing.parseIteration_assertion same.valid status found missing]
    exact .error .assertion
  | some methodEnd =>
    cases later : search space ((parsing.input.contents.take lineEnd).drop (methodEnd + 1)) with
    | none =>
      have missing : ∀ place, search space (parsing.input.contents.take lineEnd) = some place →
          search space ((parsing.input.contents.take lineEnd).drop (place + 1)) = none := by
        intro place there
        cases first.symm.trans there
        exact later
      have aborts : App.processStatusLine (parsing.input.contents.take lineEnd) other.request =
          .error .assertion := by
        simp only [App.processStatusLine, first, later]
      rw [App.body_status_error waiting unread clear aborts]
      simp only [parseLoop, Parsing.parseIteration_assertion same.valid status found missing]
      exact .error .assertion
    | some urlEnd =>
      have step := App.step_status waiting unread clear (width.symm ▸ short)
        (splitsAs_of_search first later)
      rw [step.2, width]
      simp only [parseLoop, Parsing.parseIteration_status same.valid status found first later]
      have next := same.advance inside (parsing.note (.inspect parsing.input.readIndex
        (parsing.input.writeIndex - parsing.input.readIndex) ::
          Parsing.lineAccesses parsing.input.readIndex (parsing.input.readIndex + lineEnd) methodEnd
            urlEnd)).log
        (requests.withLine waiting (parsing.input.contents.take lineEnd) methodEnd urlEnd)
      have place : parsing.input.readIndex + ((lineEnd + 2 : Nat) : Int) =
          parsing.input.readIndex + lineEnd + 2 := by omega
      rw [place] at next
      exact .ok next

/-- A round in which a header line, or the line that ends the headers, stands in front. -/
theorem SameParsing.headerLine (same : SameParsing stale parsing other) {lineEnd : Nat}
    (headers : parsing.request.currentState = .headers)
    (found : search crlf parsing.input.contents = some lineEnd) :
    EndAlike (SameParsing stale) SameEnd (parseLoop.body parsing) (App.parseLoop.body other) := by
  obtain ⟨lines, requests⟩ := same.request
  obtain ⟨unread, clear, width, short, inside⟩ := same.line found
  have waiting : other.request.curState = .headers := requests.state ▸ headers
  cases parted : search colonSpace (parsing.input.contents.take lineEnd) with
  | some colon =>
    have step := App.step_header waiting unread clear (width.symm ▸ short) parted
    rw [step.2, width]
    simp only [parseLoop, Parsing.parseIteration_header same.valid headers found parted]
    have next := same.advance inside (parsing.note (.inspect parsing.input.readIndex
      (parsing.input.writeIndex - parsing.input.readIndex) ::
        Parsing.headerAccesses parsing.input.readIndex (parsing.input.readIndex + lineEnd)
          colon)).log
      (requests.addHeader waiting ((parsing.input.contents.take lineEnd).take colon,
        (parsing.input.contents.take lineEnd).drop (colon + 2)))
    have place : parsing.input.readIndex + ((lineEnd + 2 : Nat) : Int) =
        parsing.input.readIndex + lineEnd + 2 := by omega
    rw [place] at next
    exact .ok next
  | none =>
    have step := App.step_last waiting unread clear (width.symm ▸ short)
      (search_eq_none.mp parted)
    rw [step.2]
    simp only [parseLoop, Parsing.parseIteration_last same.valid headers found parted]
    have ended : SameRequest lines { parsing.request with currentState := .done }
        { other.request with curState := .done } := by
      have started : other.request.curState ≠ .status := by
        rw [waiting]
        decide
      exact ⟨rfl, fun waits => (nomatch waits), fun _ => requests.method started,
        fun _ => requests.url started, fun _ => requests.version started, requests.headers,
        requests.number, requests.capacity, requests.entries⟩
    have two : 2 ≤ parsing.input.contents.length := by omega
    exact .ok (same.advance two _ ended)

/-- Without a line end neither parser gets anywhere. -/
theorem SameParsing.noLine (same : SameParsing stale parsing other)
    (missing : search crlf parsing.input.contents = none) :
    EndAlike (SameParsing stale) SameEnd (parseLoop.body parsing) (App.parseLoop.body other) := by
  have clear : ¬ crlf <:+: other.input.unread := by
    rw [same.unread]
    exact same.quiet 0 (search_eq_none.mp missing)
  have stuck : App.parseLoop.body other = .ok other := App.body_stuck clear
  have noted : SameParsing stale (parsing.note [.inspect parsing.input.readIndex
      (parsing.input.writeIndex - parsing.input.readIndex)]) other :=
    ⟨same.valid, same.unread, same.quiet, same.request⟩
  have searched := Parsing.findCRLF_eq same.valid
  rw [stuck]
  cases state : parsing.request.currentState with
  | status =>
    simp only [parseLoop, Parsing.parseIteration, state, searched, ok_bind, missing]
    exact .ok noted
  | headers =>
    simp only [parseLoop, Parsing.parseIteration, state, searched, ok_bind, missing]
    exact .ok noted
  | body =>
    simp only [parseLoop, Parsing.parseIteration, state]
    exact .ok same
  | done =>
    simp only [parseLoop, Parsing.parseIteration, state]
    exact .ok same

/-- The loops of both libraries are in lockstep. -/
theorem parsers_lockstep (stale : Bytes) :
    Lockstep parseLoop App.parseLoop (SameParsing stale) SameEnd := by
  constructor
  · intro parsing other same
    obtain ⟨lines, requests⟩ := same.request
    simp only [parseLoop, App.parseLoop, requests.state]
  · intro parsing other same running
    obtain ⟨lines, requests⟩ := same.request
    cases found : search crlf parsing.input.contents with
    | none => exact same.noLine found
    | some lineEnd =>
      cases state : parsing.request.currentState with
      | status => exact same.requestLine state found
      | headers => exact same.headerLine state found
      | body =>
        have idle : App.parseLoop.body other = .ok other := by
          simp only [App.parseLoop, App.parseIteration, ← requests.state, state]
        rw [idle]
        simp only [parseLoop, Parsing.parseIteration, state]
        exact .ok same
      | done => simp [parseLoop, state] at running
  · exact .unfinished

theorem SameRequest.reset (same : SameRequest lines request second) :
    SameRequest [] request.reset second.reset :=
  .fresh rfl rfl same.capacity

/-- The requests of both libraries are the same one by one, and the same bytes are left. -/
def SameStream (stale : Bytes) (first : List RequestBlocks × Parsing)
    (later : List App.HttpRequest × App.Parsing) : Prop :=
  List.Forall₂ (fun request other => ∃ lines, SameRequest lines request other) first.1 later.1 ∧
    SameParsing stale first.2 later.2

/-- On the same bytes, with none behind them that complete a line end, both libraries parse the
same requests one after the other, abort on the same one, or wait for the rest of the same one. -/
theorem parsers_agree (same : SameParsing stale parsing other) (fuel count : Nat) :
    EndAlike (SameStream stale) SameEnd (parseRequests fuel count parsing)
      (App.parseRequests fuel count other) := by
  induction count generalizing parsing other with
  | zero => exact .ok ⟨.nil, same⟩
  | succ count ih =>
    have first : EndAlike (fun parsed answer => SameParsing stale parsed.2 answer.2) SameEnd
        (parseHttpRequest fuel parsing) (App.parseHttpRequest fuel other.input other.request) :=
      ((parsers_lockstep stale).run same fuel).bind fun _ _ related => .ok related
    refine first.bind ?_
    rintro ⟨code, parsed⟩ ⟨answer, found⟩ related
    have request := related.request
    have behind : SameParsing stale { parsed with request := parsed.request.reset }
        ⟨found.input, found.request.reset⟩ :=
      ⟨related.valid, related.unread, related.quiet, ⟨[], request.choose_spec.reset⟩⟩
    refine (ih behind).bind ?_
    rintro ⟨requests, final⟩ ⟨others, last⟩ ⟨same, rest⟩
    exact .ok ⟨.cons request same, rest⟩

/-- A buffer of the C library that holds exactly the given bytes. -/
def Buffer.holding (bytes : Bytes) : Buffer :=
  { data := bytes, readIndex := 0, writeIndex := bytes.length, totalSize := bytes.length }

theorem Buffer.holding_contents (bytes : Bytes) : (Buffer.holding bytes).contents = bytes := by
  simp [holding, contents, window]

theorem parsers_agree_sample :
    EndAlike (SameStream []) SameEnd
      (parseRequests 9 2 ⟨.holding (RequestText.sample.render ++ RequestText.sample.render), .new,
        []⟩)
      (App.parseRequests 9 2
        ⟨.holding (RequestText.sample.render ++ RequestText.sample.render), .new⟩) := by
  have length : RequestText.sample.render.length = 79 := by decide
  have valid : (Buffer.holding (RequestText.sample.render ++ RequestText.sample.render)).Valid := by
    refine ⟨Int.le_refl 0, Int.natCast_nonneg _, Int.le_refl _, rfl, ?_⟩
    change (((RequestText.sample.render ++ RequestText.sample.render).length : Nat) : Int) < _
    rw [List.length_append, length]
    decide
  apply parsers_agree
  refine ⟨valid, ?_, quiet_of_no_feed List.not_mem_nil, ⟨[], .fresh rfl rfl List.length_replicate⟩⟩
  rw [Buffer.holding_contents, List.append_nil]
  rfl

end Round

end Yolanda.Lib
