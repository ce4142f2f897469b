import Yolanda.App.ReadFailure
import Yolanda.Foundation.Run
import Yolanda.Lib.ParserStep

/-! The table of headers of a request, over all requests of a connection of the C library. -/

namespace Yolanda.Lib

open Foundation
open App (HttpRequestState colonSpace crlf cString)

/-- A pointer to a block whose cells were all stored to. -/
def pointerTo (block : Cells Byte) : Option Pointer :=
  block.whole.map fun object => ⟨object, 0⟩

namespace RequestBlocks

/-- An entry of the table, if it was stored to. -/
def entry (request : RequestBlocks) (index : Nat) : Option RequestHeader := do
  let header ← request.requestHeaders.get index
  let key ← pointerTo header.key
  let value ← pointerTo header.value
  return ⟨key, value⟩

/-- The entries that `http_request_get_header` looks at. -/
def headersSeen (request : RequestBlocks) : Option (List RequestHeader) :=
  (List.range request.requestHeadersNumber).mapM request.entry

variable (strncmp : Bytes → Bytes → Int)

/-- The loop of `http_request_get_header` over the table. -/
def findEntry (request : RequestBlocks) (key : Pointer) : List Nat → Except Stop (Option Pointer)
  | [] => .ok none
  | index :: indices =>
    match request.entry index with
    | none => .error .memory
    | some header => do
      let order ← HttpRequest.compare strncmp header.key key
      if order = 0 then return some header.value else request.findEntry key indices

/-- `http_request_get_header` -/
def getHeader (request : RequestBlocks) (key : Pointer) : Except Stop (Option Pointer) :=
  request.findEntry strncmp key (List.range request.requestHeadersNumber)

/-- The loop walks over the entries it sees. -/
theorem getHeader_seen {request : RequestBlocks} {headers : List RequestHeader}
    (seen : request.headersSeen = some headers) (key : Pointer) :
    request.getHeader strncmp key = HttpRequest.findHeader strncmp key headers := by
  unfold getHeader
  unfold headersSeen at seen
  generalize List.range request.requestHeadersNumber = indices at seen
  induction indices generalizing headers with
  | nil =>
    cases seen
    rfl
  | cons index indices ih =>
    rw [List.mapM_cons] at seen
    obtain ⟨header, first, rest⟩ := Option.bind_eq_some_iff.mp seen
    obtain ⟨others, more, same⟩ := Option.bind_eq_some_iff.mp rest
    cases same
    rw [findEntry, first, HttpRequest.findHeader]
    simp only [ih more]

end RequestBlocks

/-- What a connection keeps between two calls, with the header lines that its current request
has had so far. -/
structure RequestConnection where
  input : Buffer
  request : RequestBlocks
  lines : List (Bytes × Bytes)

/-- What can happen on a connection: bytes arrive, `parse_http_request` executes its loop body, and
`http_request_reset` is called. -/
inductive RequestEvent where
  | receive (data : Delivered)
  | iterate
  | reset

namespace RequestConnection

def new : RequestConnection :=
  { input := .new, request := .new, lines := [] }

/-- The header line that is to be parsed next, parted at its first colon. -/
def headerLine (connection : RequestConnection) : Option (Bytes × Bytes) :=
  if connection.request.currentState = .headers then do
    let lineEnd ← search crlf connection.input.contents
    let line := connection.input.contents.take lineEnd
    let colon ← search colonSpace line
    return (line.take colon, line.drop (colon + 2))
  else none

/-- The entries that are looked at are the header lines of the current request, and nothing was
stored outside of the table. -/
structure TableExact (connection : RequestConnection) : Prop where
  inside : connection.request.requestHeaders.stray = []
  seen : connection.request.headersSeen.map
      (·.map fun header => (header.key.string, header.value.string)) =
    some (connection.lines.map fun line => (cString line.1, cString line.2))

end RequestConnection

def requestStep (connection : RequestConnection) : RequestEvent →
    Except Stop RequestConnection
  | .receive data => do
    let (_, input) ← connection.input.socketRead (some data.bytes) true
    return { connection with input }
  | .iterate => do
    let after ← (Parsing.mk connection.input connection.request []).parseIteration
    return {
      input := after.input
      request := after.request
      lines := connection.lines ++ connection.headerLine.toList }
  | .reset => .ok { connection with request := connection.request.reset, lines := [] }

/-- A header line that is to be parsed finds an entry in the table. -/
def RequestEvent.Fits (connection : RequestConnection) : RequestEvent → Prop
  | .iterate => connection.headerLine ≠ none → connection.lines.length < headerCapacity
  | _ => True

/-- The pointer to a block that holds a text and its terminator. -/
def textPointer (text : Bytes) : Pointer := ⟨padded text ++ [0], 0⟩

theorem pointerTo_terminated (text : Bytes) :
    pointerTo (terminated text) = some (textPointer text) :=
  congrArg (Option.map fun object => Pointer.mk object 0)
    (Cells.whole_filled (padded text ++ [0]))

theorem textPointer_clean {text : Bytes} (clean : 0 ∉ text) : textPointer text = .ofText text := by
  rw [textPointer, padded_clean clean]
  rfl

/-- The string behind the pointer is that of the text. -/
theorem string_textPointer (text : Bytes) : (textPointer text).string = cString text := by
  have nonzero : ∀ byte ∈ cString text, decide (byte ≠ 0) = true := by
    intro byte member
    exact decide_eq_true fun zero => cString_clean text (zero ▸ member)
  change ((padded text ++ [0]).drop (0 : Int).toNat).takeWhile (· ≠ 0) = _
  rw [Int.toNat_zero, List.drop_zero, padded, List.append_assoc,
    List.takeWhile_append_of_pos nonzero]
  cases text.length - (cString text).length with
  | zero => exact List.append_nil _
  | succ more => exact List.append_nil _

namespace RequestConnection

/-- The table holds the header lines of the current request in its first entries. -/
structure Tracked (connection : RequestConnection) : Prop where
  valid : connection.input.Valid
  capacity : connection.request.requestHeaders.cells.length = headerCapacity
  inside : connection.request.requestHeaders.stray = []
  number : connection.request.requestHeadersNumber = connection.lines.length
  fits : connection.lines.length ≤ headerCapacity
  entries : ∀ index line, connection.lines[index]? = some line →
    connection.request.requestHeaders.get index = some ⟨terminated line.1, terminated line.2⟩

variable {connection next : RequestConnection}

theorem new_tracked : new.Tracked where
  valid := Buffer.Valid.new
  capacity := List.length_replicate
  inside := rfl
  number := rfl
  fits := Nat.zero_le _
  entries := by
    intro index line found
    cases found

/-- Entries that are all there are seen as they are. -/
theorem seen_of_entries {request : RequestBlocks} {headers : List RequestHeader}
    (entries : ∀ index header, headers[index]? = some header →
      request.entry index = some header) :
    (List.range headers.length).mapM request.entry = some headers := by
  induction headers using List.reverseRecOn with
  | nil => rfl
  | append_singleton headers header ih =>
    have front := ih (by
      intro index other found
      have bound := (List.getElem?_eq_some_iff.mp found).1
      exact entries index other (by rwa [List.getElem?_append_left bound]))
    have last := entries headers.length header (by simp)
    rw [List.length_append, List.length_singleton, List.range_succ, List.mapM_append, front,
      List.mapM_cons, last]
    rfl

/-- The entries that are looked at are those of the lines. -/
theorem Tracked.headersSeen (tracked : connection.Tracked) :
    connection.request.headersSeen =
      some (connection.lines.map fun line => ⟨textPointer line.1, textPointer line.2⟩) := by
  have seen := @seen_of_entries connection.request
    (connection.lines.map fun line => ⟨textPointer line.1, textPointer line.2⟩) (by
      intro index header found
      rw [List.getElem?_map] at found
      obtain ⟨line, there, same⟩ := Option.map_eq_some_iff.mp found
      rw [← same, RequestBlocks.entry, tracked.entries index line there]
      simp only [Option.bind_eq_bind, Option.bind_some, pointerTo_terminated]
      rfl)
  rw [List.length_map, ← tracked.number] at seen
  exact seen

/-- The table then shows exactly these lines. -/
theorem Tracked.exact (tracked : connection.Tracked) : connection.TableExact := by
  refine ⟨tracked.inside, ?_⟩
  rw [tracked.headersSeen, Option.map_some, List.map_map]
  congr 2
  funext line
  change ((textPointer line.1).string, (textPointer line.2).string) = _
  rw [string_textPointer, string_textPointer]

/-- One more line finds its place behind the others. -/
theorem Tracked.add (tracked : connection.Tracked) {input : Buffer} {line : Bytes × Bytes}
    (valid : input.Valid) (room : connection.lines.length < headerCapacity)
    {request : RequestBlocks}
    (table : request.requestHeaders =
      connection.request.requestHeaders.put connection.request.requestHeadersNumber
        ⟨terminated line.1, terminated line.2⟩)
    (number : request.requestHeadersNumber = connection.request.requestHeadersNumber + 1) :
    Tracked ⟨input, request, connection.lines ++ [line]⟩ := by
  have inside : connection.request.requestHeadersNumber <
      connection.request.requestHeaders.cells.length := by
    rw [tracked.number, tracked.capacity]
    exact room
  constructor
  · exact valid
  · rw [table, Cells.length_put]
    exact tracked.capacity
  · rw [table, Cells.stray_put inside]
    exact tracked.inside
  · rw [number, tracked.number, List.length_append]
    rfl
  · rw [List.length_append]
    exact room
  · intro index other found
    rw [table, Cells.get_put inside, tracked.number]
    by_cases last : connection.lines.length = index
    · subst last
      rw [List.getElem?_concat_length] at found
      cases found
      exact if_pos rfl
    · have bound := (List.getElem?_eq_some_iff.mp found).1
      rw [List.length_append, List.length_singleton] at bound
      rw [List.getElem?_append_left (by omega)] at found
      rw [if_neg last]
      exact tracked.entries index other found

/-- The header line that stands in the input is the one an execution of the loop body adds. -/
theorem headerLine_eq (headers : connection.request.currentState = .headers) {lineEnd colon : Nat}
    (found : search crlf connection.input.contents = some lineEnd)
    (parted : search colonSpace (connection.input.contents.take lineEnd) = some colon) :
    connection.headerLine = some ((connection.input.contents.take lineEnd).take colon,
      (connection.input.contents.take lineEnd).drop (colon + 2)) := by
  simp only [headerLine, headers, ↓reduceIte, found, Option.bind_eq_bind, Option.bind_some, parted]
  rfl

/-- Where a header line stands in the input, the loop body is executed on it. -/
theorem iterate_header (valid : connection.input.Valid) {line : Bytes × Bytes}
    (there : connection.headerLine = some line) :
    ∃ after, (Parsing.mk connection.input connection.request []).parseIteration = .ok after ∧
      after.request = connection.request.addHeader ⟨terminated line.1, terminated line.2⟩ := by
  by_cases headers : connection.request.currentState = .headers
  · simp only [headerLine, headers, ↓reduceIte, Option.bind_eq_bind] at there
    obtain ⟨lineEnd, found, rest⟩ := Option.bind_eq_some_iff.mp there
    obtain ⟨colon, parted, same⟩ := Option.bind_eq_some_iff.mp rest
    cases same
    have parses := @Parsing.parseIteration_header ⟨connection.input, connection.request, []⟩ valid
      lineEnd colon headers found parted
    exact ⟨_, parses, rfl⟩
  · rw [headerLine, if_neg headers] at there
    cases there

/-- An execution of the loop body adds the header line there is, or leaves the table alone. -/
theorem iterate_cases {after : Parsing}
    (iterated : Parsing.Iterated ⟨connection.input, connection.request, []⟩ after) :
    (∃ line, connection.headerLine = some line ∧
        after.request = connection.request.addHeader ⟨terminated line.1, terminated line.2⟩) ∨
      connection.headerLine = none ∧
        after.request.requestHeaders = connection.request.requestHeaders ∧
        after.request.requestHeadersNumber = connection.request.requestHeadersNumber := by
  cases iterated with
  | idle status headers =>
    exact .inr ⟨if_neg headers, rfl, rfl⟩
  | waiting missing =>
    refine .inr ⟨?_, rfl, rfl⟩
    have missing : search crlf connection.input.contents = none := missing
    rw [headerLine, missing]
    split
    · rfl
    · rfl
  | requestLine status found first second =>
    refine .inr ⟨if_neg ?_, rfl, rfl⟩
    have status : connection.request.currentState = .status := status
    rw [status]
    decide
  | headerLine headers found parted => exact .inl ⟨_, headerLine_eq headers found parted, rfl⟩
  | lastLine headers found unparted =>
    refine .inr ⟨?_, rfl, rfl⟩
    simp only at headers found unparted
    simp only [headerLine, headers, ↓reduceIte, found, Option.bind_eq_bind, Option.bind_some,
      unparted, Option.bind_none]

/-- A step that fits keeps the table in order. -/
theorem Tracked.step (tracked : connection.Tracked) {event : RequestEvent}
    (fits : event.Fits connection) (success : requestStep connection event = .ok next) :
    next.Tracked := by
  cases event with
  | receive data =>
    obtain ⟨⟨count, input⟩, read, same⟩ := bind_eq_ok.mp success
    cases same
    have limited : data.bytes.length < 2 ^ 31 := lt_of_le_of_lt data.limited (by decide)
    rcases tracked.valid.socketRead limited with ⟨filled, reads, appended⟩ | ⟨overflows, _⟩
    · cases reads.symm.trans read
      exact ⟨appended.valid, tracked.capacity, tracked.inside, tracked.number, tracked.fits,
        tracked.entries⟩
    · cases overflows.symm.trans read
  | iterate =>
    obtain ⟨after, iterates, same⟩ := bind_eq_ok.mp success
    cases same
    have iterated := Parsing.parseIteration_cases tracked.valid iterates
    have valid := iterated.valid tracked.valid
    rcases iterate_cases iterated with ⟨line, there, added⟩ | ⟨missing, table, number⟩
    · have room := fits (by rw [there]; exact Option.some_ne_none line)
      rw [there]
      exact tracked.add valid room (congrArg RequestBlocks.requestHeaders added)
        (congrArg RequestBlocks.requestHeadersNumber added)
    · rw [missing]
      refine ⟨valid, ?_, ?_, ?_, ?_, ?_⟩
      · rw [table]
        exact tracked.capacity
      · rw [table]
        exact tracked.inside
      · rw [number, Option.toList_none, List.append_nil]
        exact tracked.number
      · rw [Option.toList_none, List.append_nil]
        exact tracked.fits
      · rw [table, Option.toList_none, List.append_nil]
        exact tracked.entries
  | reset =>
    cases success
    exact ⟨tracked.valid, tracked.capacity, tracked.inside, rfl, Nat.zero_le _, by simp⟩

/-- A header line too many is stored behind the table. -/
theorem Tracked.overrun (tracked : connection.Tracked) {event : RequestEvent}
    (unfit : ¬ event.Fits connection) :
    ∃ next, requestStep connection event = .ok next ∧ ¬ next.TableExact := by
  cases event with
  | receive data => exact absurd trivial unfit
  | reset => exact absurd trivial unfit
  | iterate =>
    have unmet : connection.headerLine ≠ none ∧ ¬ connection.lines.length < headerCapacity :=
      Classical.not_imp.mp unfit
    obtain ⟨line, there⟩ := Option.ne_none_iff_exists'.mp unmet.1
    obtain ⟨after, iterates, added⟩ := iterate_header tracked.valid there
    refine ⟨_, bind_eq_ok.mpr ⟨after, iterates, rfl⟩, ?_⟩
    intro exact
    have full : connection.request.requestHeaders.cells.length ≤
        (connection.request.requestHeadersNumber : Int) := by
      rw [tracked.capacity, tracked.number]
      exact Int.ofNat_le.mpr (Nat.le_of_not_lt unmet.2)
    have inside := exact.inside
    rw [added, RequestBlocks.addHeader, Cells.put_outside (.inr full)] at inside
    exact absurd inside (by simp)

/-- On one connection, whatever the requests, the stores to the table stay inside of it and the
headers that can be looked up are those of the current request exactly when every header line
that is parsed has fewer lines of its request before it than the table has entries. -/
theorem headers_in_table_iff (events : List RequestEvent) :
    Always requestStep TableExact new events ↔
      Along requestStep (fun connection event => event.Fits connection) new events :=
  always_iff_along (fun _ _ _ tracked fits success => tracked.step fits success)
    (fun _ _ tracked unfit => tracked.overrun unfit) (fun _ tracked => tracked.exact) new_tracked

/-- The connection expects header lines, has read all that came, and has had so many. -/
structure Expecting (connection : RequestConnection) (count : Nat) : Prop where
  tracked : connection.Tracked
  headers : connection.request.currentState = .headers
  empty : connection.input.contents = []
  counted : connection.lines.length = count

/-- Bytes that arrive on an empty input can be read. -/
private theorem receive_empty (valid : connection.input.Valid)
    (empty : connection.input.contents = []) {data : Delivered} (short : data.bytes.length < 2 ^ 30) :
    ∃ input, requestStep connection (.receive data) = .ok { connection with input } ∧
      input.Valid ∧ input.contents = data.bytes := by
  have limited : data.bytes.length < 2 ^ 31 := lt_of_le_of_lt data.limited (by decide)
  rcases valid.socketRead limited with ⟨filled, reads, appended⟩ | ⟨_, small, large⟩
  · refine ⟨filled, bind_eq_ok.mpr ⟨_, reads, rfl⟩, appended.valid, ?_⟩
    rw [appended.contents, empty, List.nil_append]
  · rw [empty, List.length_nil] at small
    omega

/-- An input is empty when all its bytes were taken. -/
private theorem contents_taken {input : Buffer} {place : Int}
    (kept : ({ input with readIndex := place } : Buffer).Valid) (last : place = input.writeIndex) :
    ({ input with readIndex := place } : Buffer).contents = [] := by
  have length := kept.length_contents
  change _ = input.writeIndex - place at length
  exact List.eq_nil_of_length_eq_zero (by omega)

/-- One header line. -/
def oneHeader : Delivered :=
  { bytes := App.ascii "a: b\r\n", limited := by decide }

/-- The first line of a request. -/
def oneRequestLine : Delivered :=
  { bytes := App.ascii "GET / HTTP/1.1\r\n", limited := by decide }

/-- A header line arrives on a connection that expects one. -/
private theorem Expecting.receive {count : Nat} (expecting : connection.Expecting count) :
    ∃ input, requestStep connection (.receive oneHeader) = .ok { connection with input } ∧
      Tracked { connection with input } ∧ search crlf input.contents = some 4 ∧
      search colonSpace (input.contents.take 4) = some 1 ∧ input.contents.length = 6 := by
  obtain ⟨input, received, valid, contents⟩ := receive_empty expecting.tracked.valid
    expecting.empty (show oneHeader.bytes.length < _ by decide)
  refine ⟨input, received, ⟨valid, expecting.tracked.capacity, expecting.tracked.inside,
    expecting.tracked.number, expecting.tracked.fits, expecting.tracked.entries⟩, ?_⟩
  rw [contents]
  decide

/-- The line is parsed while there is room. -/
private theorem Expecting.more {count : Nat} (expecting : connection.Expecting count)
    (room : count < headerCapacity) : ∃ next, run requestStep connection
      [.receive oneHeader, .iterate] = .ok next ∧ next.Expecting (count + 1) := by
  obtain ⟨input, received, tracked, found, parted, whole⟩ := expecting.receive
  have parses := @Parsing.parseIteration_header ⟨input, connection.request, []⟩ tracked.valid 4 1
    expecting.headers found parted
  have line := @headerLine_eq { connection with input } expecting.headers 4 1 found parted
  have iterates : requestStep { connection with input } .iterate = .ok _ :=
    bind_eq_ok.mpr ⟨_, parses, rfl⟩
  have fits : RequestEvent.Fits { connection with input } .iterate :=
    fun _ => lt_of_eq_of_lt expecting.counted room
  have after := tracked.step fits iterates
  refine ⟨_, (run_cons received _).trans ((run_cons iterates _).trans rfl), after,
    expecting.headers, ?_, ?_⟩
  · have length := tracked.valid.length_contents
    rw [whole] at length
    change _ = input.writeIndex - input.readIndex at length
    refine contents_taken after.valid ?_
    change input.readIndex + (4 : Nat) + 2 = input.writeIndex
    omega
  · rw [line, List.length_append, expecting.counted]
    rfl

/-- The first line of a request. -/
private theorem expecting_first : ∃ next, run requestStep new
    [.receive oneRequestLine, .iterate] = .ok next ∧ next.Expecting 0 := by
  obtain ⟨input, received, valid, contents⟩ := @receive_empty new Buffer.Valid.new
    (List.eq_nil_of_length_eq_zero (by decide)) oneRequestLine (by decide)
  have found : search crlf input.contents = some 14 := by
    rw [contents]
    decide
  have first : search App.space (input.contents.take 14) = some 3 := by
    rw [contents]
    decide
  have second : search App.space ((input.contents.take 14).drop (3 + 1)) = some 1 := by
    rw [contents]
    decide
  have parses := @Parsing.parseIteration_status ⟨input, .new, []⟩ valid 14 3 1 rfl found first
    second
  have iterates : requestStep { new with input } .iterate = .ok _ :=
    bind_eq_ok.mpr ⟨_, parses, rfl⟩
  have before : Tracked { new with input } :=
    ⟨valid, new_tracked.capacity, rfl, rfl, Nat.zero_le _, new_tracked.entries⟩
  have fits : RequestEvent.Fits { new with input } .iterate :=
    fun _ => show 0 < headerCapacity by decide
  have after := before.step fits iterates
  refine ⟨_, (run_cons received _).trans ((run_cons iterates _).trans rfl), after, rfl, ?_, rfl⟩
  have whole : input.contents.length = 16 := by
    rw [contents]
    decide
  have length := valid.length_contents
  rw [whole] at length
  refine contents_taken after.valid ?_
  change input.readIndex + (14 : Nat) + 2 = input.writeIndex
  omega

/-- So many header lines, one after the other. -/
def headerEvents : Nat → List RequestEvent
  | 0 => [.receive oneRequestLine, .iterate]
  | count + 1 => headerEvents count ++ [.receive oneHeader, .iterate]

private theorem expecting_all {count : Nat} (room : count ≤ headerCapacity) :
    ∃ next, run requestStep new (headerEvents count) = .ok next ∧ next.Expecting count := by
  induction count with
  | zero => exact expecting_first
  | succ count ih =>
    obtain ⟨middle, before, expecting⟩ := ih (by omega)
    obtain ⟨last, taken, more⟩ := expecting.more (by omega)
    exact ⟨last, run_append.mpr ⟨middle, before, taken⟩, more⟩

/-- A request with one header line more than the table has entries is stored to a place behind
the table. -/
theorem long_request_overruns :
    ¬ Always requestStep TableExact new (headerEvents (headerCapacity + 1)) := by
  intro always
  obtain ⟨full, before, expecting⟩ := @expecting_all headerCapacity (Nat.le_refl _)
  obtain ⟨input, received, tracked, found, parted, _⟩ := expecting.receive
  have line := @headerLine_eq { full with input } expecting.headers 4 1 found parted
  have unfit : ¬ RequestEvent.Fits { full with input } .iterate := by
    intro fits
    have room := fits (by rw [line]; exact Option.some_ne_none _)
    exact absurd (lt_of_eq_of_lt expecting.counted.symm room) (Nat.lt_irrefl _)
  obtain ⟨last, taken, lost⟩ := tracked.overrun unfit
  apply lost
  apply always _ last (List.prefix_refl _)
  exact run_append.mpr ⟨full, before, (run_cons received _).trans ((run_cons taken _).trans rfl)⟩

end RequestConnection

end Yolanda.Lib
