import Yolanda.Lib.HttpParser

/-! What a call of the parser of the C library does when it returns. -/

namespace Yolanda.Lib

open Foundation
open App (HttpRequestState space colonSpace crlf cString)

namespace Parsing

/-- The bytes from `start` up to `stop` lie in the block of the input. -/
structure Placed (parsing : Parsing) (start stop : Int) : Prop where
  first : 0 ≤ start
  ordered : start ≤ stop
  inside : stop ≤ parsing.input.data.length
  small : (parsing.input.data.length : Int) < 2 ^ 31

/-- The line from `start` up to `stop`. -/
def line (parsing : Parsing) (start stop : Int) : Bytes :=
  parsing.range start (stop - start)

variable {parsing : Parsing} {start stop place count : Int} {skipped taken : Nat}

/-- Only the input has to do with where bytes lie. -/
theorem Placed.of_input {other : Parsing} (placed : parsing.Placed start stop)
    (same : other.input = parsing.input) : other.Placed start stop :=
  ⟨placed.first, placed.ordered, same ▸ placed.inside, same ▸ placed.small⟩

theorem Placed.note (placed : parsing.Placed start stop) (accesses : List Access) :
    (parsing.note accesses).Placed start stop :=
  placed.of_input rfl

theorem Placed.length_line (placed : parsing.Placed start stop) :
    ((parsing.line start stop).length : Int) = stop - start := by
  obtain ⟨first, ordered, inside, small⟩ := placed
  have width : (parsing.line start stop).length = (start + (stop - start)).toNat - start.toNat :=
    length_window (by omega)
  omega

/-- A range inside of a line is a part of it. -/
theorem Placed.range_part (placed : parsing.Placed start stop) (begins : place = start + skipped)
    (counted : count = taken) (fits : skipped + taken ≤ (parsing.line start stop).length) :
    parsing.range place count = ((parsing.line start stop).drop skipped).take taken := by
  have length := placed.length_line
  obtain ⟨first, ordered, inside, small⟩ := placed
  have front : place.toNat = start.toNat + skipped := by omega
  have back : (place + count).toNat = start.toNat + skipped + taken := by omega
  have whole : (start + (stop - start)).toNat = stop.toNat := by omega
  rw [line, range, range, front, back, whole, window_drop, window, window, List.take_drop,
    List.take_take, Nat.min_eq_left (by omega)]

/-- The rest of a line is a range of its own. -/
theorem Placed.range_rest (placed : parsing.Placed start stop) (begins : place = start + skipped)
    (fits : skipped ≤ (parsing.line start stop).length) (counted : count = stop - place) :
    parsing.range place count = (parsing.line start stop).drop skipped := by
  have length := placed.length_line
  rw [@range_part _ _ _ _ _ skipped ((parsing.line start stop).length - skipped) placed begins
    (by omega) (by omega), List.take_of_length_le (by rw [List.length_drop])]

/-- The part of a line behind one of its bytes is a line again. -/
theorem Placed.behind (placed : parsing.Placed start stop) (skipped : Nat)
    (fits : skipped + 1 ≤ (parsing.line start stop).length) :
    parsing.Placed (start + skipped + 1) stop ∧
      parsing.line (start + skipped + 1) stop = (parsing.line start stop).drop (skipped + 1) := by
  have length := placed.length_line
  have begins : start + skipped + 1 = start + (skipped + 1 : Nat) := by omega
  have rest := placed.range_rest begins fits rfl
  obtain ⟨first, ordered, inside, small⟩ := placed
  exact ⟨⟨by omega, by omega, inside, small⟩, rest⟩

end Parsing

theorem intOfDifference_eq {difference : Int} (positive : 0 ≤ difference)
    (small : difference < 2 ^ 31) : intOfDifference difference = difference := by
  obtain ⟨size, rfl⟩ := Int.eq_ofNat_of_zero_le positive
  exact intOfSize_of_lt (by omega)

@[simp] theorem length_padded (source : Bytes) : (padded source).length = source.length := by
  have front : (cString source).length ≤ source.length := (List.takeWhile_prefix _).length_le
  rw [padded, List.length_append, List.length_replicate]
  omega

theorem padded_clean {source : Bytes} (clean : 0 ∉ source) : padded source = source := by
  rw [padded, cString_eq clean, Nat.sub_self, List.replicate_zero, List.append_nil]

/-- A string that is terminated in its block. -/
def terminated (text : Bytes) : Cells Byte :=
  .filled (padded text ++ [0]) 0

/-- A string whose terminator was stored behind its block, which has one cell more than the
string. -/
def unterminated (text : Bytes) : Cells Byte :=
  { Cells.filled (padded text) 1 with stray := [text.length + 1] }

variable {parsing : Parsing} {start count size : Int} {text : Bytes}

/-- `strncpy` leaves the last cell of the block as it was. -/
private theorem copied (counted : count = text.length) (small : text.length < 2 ^ 31) :
    (Cells.allocate (sizeOfInt (count + 1))).putAll 0 (padded text) =
      .filled (padded text) 1 := by
  have natural : count + 1 = (text.length + 1 : Nat) := by omega
  have stored := @Cells.putAll_filled Byte [] (padded text) (text.length + 1) (by
    rw [length_padded]
    omega)
  have rest : text.length + 1 - (padded text).length = 1 := by
    rw [length_padded]
    omega
  rw [List.length_nil, List.nil_append, rest] at stored
  rw [natural, sizeOfInt_ofNat (by omega), Cells.allocate_eq, stored]

/-- The copy of a string with its terminator in the last cell. -/
theorem copyString_terminated (there : parsing.range start count = text)
    (counted : count = text.length) (small : text.length < 2 ^ 31) :
    parsing.copyString start count (count + 1) count =
      (terminated text, parsing.note [.allocate (count + 1), .inspect start count, .copy count]) := by
  have ends := Cells.put_filled (padded text) 0 0
  rw [length_padded] at ends
  rw [Parsing.copyString, there, copied counted small, counted, ends]
  rfl

/-- The copy of a string with its terminator behind the block. -/
theorem copyString_unterminated (there : parsing.range start count = text)
    (counted : count = text.length) (small : text.length < 2 ^ 31) :
    parsing.copyString start count (count + 1) (count + 1) =
      (unterminated text,
        parsing.note [.allocate (count + 1), .inspect start count, .copy count]) := by
  have width : (Cells.filled (padded text) 1).cells.length = text.length + 1 := by
    simp [Cells.filled]
  have ends := @Cells.put_outside Byte (Cells.filled (padded text) 1) (text.length + 1)
    (.inr (by omega)) 0
  rw [Parsing.copyString, there, copied counted small, counted, ends]
  rfl

namespace Parsing

variable {parsing : Parsing} {start stop : Int} {fieldEnd methodEnd urlEnd : Nat}

@[simp] theorem note_note (parsing : Parsing) (first second : List Access) :
    (parsing.note first).note second = parsing.note (first ++ second) := by
  rw [note, note, note, List.append_assoc]

/-- What is done to memory for a field of so many bytes from `start` on. -/
def fieldAccesses (start stop size : Int) : List Access :=
  [.inspect start (stop - start), .allocate (size + 1), .inspect start size, .copy size]

/-- A field ends at the first space. -/
theorem takeField_found (placed : parsing.Placed start stop)
    (found : search space (parsing.line start stop) = some fieldEnd) :
    parsing.takeField start stop = .ok (start + fieldEnd,
      unterminated ((parsing.line start stop).take fieldEnd),
      parsing.note (fieldAccesses start stop fieldEnd)) := by
  have length := placed.length_line
  have within := search_fits found
  have one : space.length = 1 := rfl
  have low := placed.first
  have small := placed.small
  have inside := placed.inside
  have place : start + fieldEnd - start = fieldEnd := by omega
  have width : ((parsing.line start stop).take fieldEnd).length = fieldEnd := by
    rw [List.length_take]
    omega
  have text := placed.range_part (Int.add_zero start).symm rfl
    (show 0 + fieldEnd ≤ (parsing.line start stop).length by omega)
  have bound : -2 ^ 31 ≤ (fieldEnd : Int) + 1 ∧ (fieldEnd : Int) + 1 < 2 ^ 31 := by omega
  have size := @intOfDifference_eq fieldEnd (by omega) (by omega)
  have copy := @copyString_unterminated (parsing.note [.inspect start (stop - start)]) start
    fieldEnd _ text (by rw [List.drop_zero, width]) (by
      rw [List.drop_zero, width]
      omega)
  rw [List.drop_zero] at copy
  have range : parsing.range start (stop - start) = parsing.line start stop := rfl
  simp only [takeField, memmem, range, found, Option.map_some, place, size,
    intResult_eq bound.1 bound.2, ok_bind, copy, note_note]
  rfl

/-- Without a space the assertion fails. -/
theorem takeField_none (missing : search space (parsing.line start stop) = none) :
    parsing.takeField start stop = .error .assertion := by
  have range : parsing.range start (stop - start) = parsing.line start stop := rfl
  simp only [takeField, memmem, range, missing, Option.map_none]
  rfl

/-- What is done to memory when a line is taken apart behind its first two spaces. -/
def lineAccesses (start stop : Int) (methodEnd urlEnd : Nat) : List Access :=
  let url := start + methodEnd + 1
  let version := url + urlEnd + 1
  fieldAccesses start stop methodEnd ++ fieldAccesses url stop urlEnd ++
    [.allocate (stop - version + 1), .inspect version (stop - version), .copy (stop - version)]

/-- The request with the parts of a line as its fields. -/
def withLine (request : RequestBlocks) (line : Bytes) (methodEnd urlEnd : Nat) : RequestBlocks :=
  { request with
    method := some (unterminated (line.take methodEnd))
    url := some (unterminated ((line.drop (methodEnd + 1)).take urlEnd))
    version := some (unterminated (line.drop (methodEnd + 1 + urlEnd + 1))) }

/-- What is left to do behind the second space. -/
def takeVersion (parsing : Parsing) (size start stop : Int) : Except Stop (Int × Parsing) :=
  let (version, parsing) :=
    parsing.copyString start (stop - start) (stop - start + 1) (stop - start + 1)
  .ok (size, { parsing with request.version := some version })

/-- The parser once it has stored the method. -/
def withMethod (parsing : Parsing) (start stop : Int) (methodEnd : Nat) : Parsing :=
  { parsing.note (fieldAccesses start stop methodEnd) with
    request.method := some (unterminated ((parsing.line start stop).take methodEnd)) }

/-- The parser once it has stored the url. -/
def withUrl (parsing : Parsing) (start stop : Int) (urlEnd : Nat) : Parsing :=
  { parsing.note (fieldAccesses start stop urlEnd) with
    request.url := some (unterminated ((parsing.line start stop).take urlEnd)) }

/-- The version is the rest of the line. -/
private theorem takeVersion_eq (placed : parsing.Placed start stop) (size : Int) :
    parsing.takeVersion size start stop = .ok (size,
      { parsing.note [.allocate (stop - start + 1), .inspect start (stop - start),
          .copy (stop - start)] with
        request.version := some (unterminated (parsing.line start stop)) }) := by
  have length := placed.length_line
  have low := placed.first
  have small := placed.small
  have inside := placed.inside
  have copy := @copyString_unterminated parsing start (stop - start) _ rfl length.symm (by
    change (parsing.line start stop).length < 2 ^ 31
    omega)
  rw [takeVersion, copy]
  rfl

/-- A line whose first space is known is taken apart behind it. -/
private theorem processStatusLine_method (placed : parsing.Placed start stop)
    (first : search space (parsing.line start stop) = some methodEnd) :
    parsing.processStatusLine start stop = (do
      let (space, url, parsing) ←
        (parsing.withMethod start stop methodEnd).takeField (start + methodEnd + 1) stop
      let parsing := { parsing with request.url := some url }
      parsing.takeVersion (stop - start) (space + 1) stop) := by
  have ordered := placed.ordered
  have low := placed.first
  have small := placed.small
  have inside := placed.inside
  have size := @intOfDifference_eq (stop - start) (by omega) (by omega)
  rw [processStatusLine, size]
  exact bind_of_ok (takeField_found placed first) _

/-- A line is taken apart at its first two spaces. -/
theorem processStatusLine_found (placed : parsing.Placed start stop)
    (first : search space (parsing.line start stop) = some methodEnd)
    (second : search space ((parsing.line start stop).drop (methodEnd + 1)) = some urlEnd) :
    parsing.processStatusLine start stop = .ok (stop - start,
      { parsing.note (lineAccesses start stop methodEnd urlEnd) with
        request := withLine parsing.request (parsing.line start stop) methodEnd urlEnd }) := by
  have front := search_fits first
  have back := search_fits second
  have one : space.length = 1 := rfl
  rw [List.length_drop] at back
  obtain ⟨urlPlaced, url⟩ := placed.behind methodEnd (by omega)
  obtain ⟨versionPlaced, version⟩ := urlPlaced.behind urlEnd (by
    rw [url, List.length_drop]
    omega)
  rw [url, List.drop_drop] at version
  have taken : (parsing.withMethod start stop methodEnd).takeField (start + methodEnd + 1) stop = _ :=
    takeField_found (urlPlaced.of_input rfl) (url ▸ second)
  have there : ((parsing.withMethod start stop methodEnd).withUrl (start + methodEnd + 1) stop
      urlEnd).Placed (start + methodEnd + 1 + urlEnd + 1) stop := versionPlaced.of_input rfl
  rw [processStatusLine_method placed first, bind_of_ok taken]
  refine (takeVersion_eq there _).trans ?_
  have urlText : (parsing.withMethod start stop methodEnd).line (start + methodEnd + 1) stop =
      (parsing.line start stop).drop (methodEnd + 1) := url
  have versionText : ((parsing.withMethod start stop methodEnd).withUrl (start + methodEnd + 1) stop
      urlEnd).line (start + methodEnd + 1 + urlEnd + 1) stop =
        (parsing.line start stop).drop (methodEnd + 1 + urlEnd + 1) := version
  rw [versionText, lineAccesses, ← note_note, ← note_note, withLine, withUrl, urlText]
  rfl

/-- A line with fewer spaces fails the assertion. -/
theorem processStatusLine_missing (placed : parsing.Placed start stop)
    (missing : ∀ methodEnd, search space (parsing.line start stop) = some methodEnd →
      search space ((parsing.line start stop).drop (methodEnd + 1)) = none) :
    parsing.processStatusLine start stop = .error .assertion := by
  cases first : search space (parsing.line start stop) with
  | none =>
    rw [processStatusLine, takeField_none first]
    rfl
  | some methodEnd =>
    have within := search_fits first
    have one : space.length = 1 := rfl
    obtain ⟨_, url⟩ := placed.behind methodEnd (by omega)
    have second : search space ((parsing.withMethod start stop methodEnd).line
        (start + methodEnd + 1) stop) = none :=
      (congrArg (search space) url).trans (missing methodEnd first)
    rw [processStatusLine_method placed first, takeField_none second]
    rfl

/-- The two steps over a line stay within the block. -/
theorem skip_eq {size : Int} (start : 0 ≤ parsing.input.readIndex) (positive : 0 ≤ size)
    (inside : parsing.input.readIndex + size + 2 < 2 ^ 31) :
    parsing.skip size =
      .ok { parsing with input.readIndex := parsing.input.readIndex + size + 2 } := by
  rw [skip, intResult_eq (by omega) (by omega), ok_bind, intResult_eq (by omega) inside, ok_bind]
  rfl

/-- What is done to memory for a header line that is parted at the colon. -/
def headerAccesses (start stop colon : Int) : List Access :=
  let size := stop - (start + colon) - 2
  [.inspect start (stop - start), .allocate (colon + 1), .inspect start colon, .copy colon,
    .allocate (size + 1), .inspect (start + colon + 2) size, .copy size]

/-- The strings of a header line that is parted at the colon. -/
def headerOf (line : Bytes) (colon : Nat) : HeaderBlocks :=
  ⟨terminated (line.take colon), terminated (line.drop (colon + 2))⟩

/-- A header line is parted at its colon and added to the request. -/
theorem parseHeader_found {crlf : Int} {colon : Nat}
    (placed : parsing.Placed parsing.input.readIndex crlf)
    (room : crlf + 2 < 2 ^ 31)
    (found : search colonSpace (parsing.line parsing.input.readIndex crlf) = some colon) :
    parsing.parseHeader crlf = .ok { parsing.note
        (headerAccesses parsing.input.readIndex crlf colon) with
      input.readIndex := crlf + 2
      request := parsing.request.addHeader
        (headerOf (parsing.line parsing.input.readIndex crlf) colon) } := by
  have length := placed.length_line
  have within := search_fits found
  have two : colonSpace.length = 2 := rfl
  have low := placed.first
  have ordered := placed.ordered
  have place : parsing.input.readIndex + colon - parsing.input.readIndex = colon := by omega
  have behind : parsing.input.readIndex + colon + 2 =
      parsing.input.readIndex + (colon + 2 : Nat) := by omega
  have last : crlf - (parsing.input.readIndex + colon) - 2 =
      crlf - (parsing.input.readIndex + colon + 2) := by omega
  have size := @intOfDifference_eq (crlf - parsing.input.readIndex) (by omega) (by omega)
  have key := placed.range_part (Int.add_zero parsing.input.readIndex).symm rfl
    (show 0 + colon ≤ (parsing.line parsing.input.readIndex crlf).length by omega)
  have value := placed.range_rest behind (by omega) last
  have range : parsing.range parsing.input.readIndex (crlf - parsing.input.readIndex) =
      parsing.line parsing.input.readIndex crlf := rfl
  rw [List.drop_zero] at key
  have keyCopy := @copyString_terminated
    (parsing.note [.inspect parsing.input.readIndex (crlf - parsing.input.readIndex)]) _ colon _
    key (by
    rw [List.length_take]
    omega) (by
    rw [List.length_take]
    have small := placed.small
    have inside := placed.inside
    omega)
  have valueCopy := @copyString_terminated
    ((parsing.note [.inspect parsing.input.readIndex (crlf - parsing.input.readIndex)]).note
      [.allocate (colon + 1), .inspect parsing.input.readIndex colon, .copy colon]) _
    (crlf - (parsing.input.readIndex + colon) - 2) _ value (by
    rw [List.length_drop]
    omega) (by
    rw [List.length_drop]
    have small := placed.small
    have inside := placed.inside
    omega)
  have moved : parsing.input.readIndex + (crlf - parsing.input.readIndex) + 2 = crlf + 2 := by
    omega
  simp only [parseHeader, memmem, size, range, found, Option.map_some, place, keyCopy, valueCopy]
  refine (skip_eq (by exact low) (by omega) (by exact moved ▸ room)).trans ?_
  simp only [note, moved, List.append_assoc]
  rfl

/-- A line without a colon is the last one. -/
theorem parseHeader_last {crlf : Int} (placed : parsing.Placed parsing.input.readIndex crlf)
    (room : crlf + 2 < 2 ^ 31)
    (missing : search colonSpace (parsing.line parsing.input.readIndex crlf) = none) :
    parsing.parseHeader crlf = .ok { parsing.note
        [.inspect parsing.input.readIndex (crlf - parsing.input.readIndex)] with
      input.readIndex := parsing.input.readIndex + 2
      request.currentState := .done } := by
  have low := placed.first
  have ordered := placed.ordered
  have size := @intOfDifference_eq (crlf - parsing.input.readIndex) (by omega) (by omega)
  have range : parsing.range parsing.input.readIndex (crlf - parsing.input.readIndex) =
      parsing.line parsing.input.readIndex crlf := rfl
  simp only [parseHeader, memmem, size, range, missing, Option.map_none]
  have skipped := @skip_eq
    (parsing.note [.inspect parsing.input.readIndex (crlf - parsing.input.readIndex)]) 0 low
    (Int.le_refl 0) (by
      change parsing.input.readIndex + 0 + 2 < 2 ^ 31
      omega)
  rw [skipped, ok_bind]
  change Except.ok _ = _
  simp only [note, Int.add_zero]

variable {input : Buffer} {before after : Parsing}

/-- The readable bytes lie in the block. -/
theorem placed_of_valid (valid : before.input.Valid) :
    before.Placed before.input.readIndex before.input.writeIndex := by
  obtain ⟨start, ordered, stored, allocated, small⟩ := valid
  exact ⟨start, ordered, by omega, by omega⟩

/-- The readable bytes are a line, if the block is looked at alone. -/
theorem line_contents (before : Parsing) :
    before.line before.input.readIndex before.input.writeIndex = before.input.contents := by
  have whole : before.input.readIndex + (before.input.writeIndex - before.input.readIndex) =
      before.input.writeIndex := by omega
  rw [line, range, whole]
  rfl

/-- The bytes up to a line end are the front of the readable bytes. -/
theorem line_of_contents (valid : before.input.Valid) {lineEnd : Nat}
    (within : lineEnd ≤ before.input.contents.length) :
    before.line before.input.readIndex (before.input.readIndex + lineEnd) =
      before.input.contents.take lineEnd := by
  have size : before.input.readIndex + lineEnd - before.input.readIndex = lineEnd := by omega
  rw [← line_contents] at within ⊢
  have part := (placed_of_valid valid).range_part (Int.add_zero before.input.readIndex).symm rfl
    (show 0 + lineEnd ≤ (before.line before.input.readIndex before.input.writeIndex).length by
      omega)
  rw [List.drop_zero] at part
  rw [← part, line, size]

/-- `buffer_find_CRLF` looks at the readable bytes. -/
theorem findCRLF_eq (valid : before.input.Valid) :
    before.findCRLF = .ok
      ((search crlf before.input.contents).map fun (offset : Nat) =>
          before.input.readIndex + offset,
        before.note [.inspect before.input.readIndex
          (before.input.writeIndex - before.input.readIndex)]) := by
  have whole : before.range before.input.readIndex
      (before.input.writeIndex - before.input.readIndex) = before.input.contents :=
    before.line_contents
  rw [findCRLF, valid.readableSize, ok_bind, valid.length_contents, memmem, whole]
  rfl

/-- What an execution of the loop body does that returns. -/
inductive Iterated (before : Parsing) : Parsing → Prop
  | idle (status : before.request.currentState ≠ .status)
      (headers : before.request.currentState ≠ .headers) : Iterated before before
  | waiting (missing : search crlf before.input.contents = none) :
      Iterated before (before.note [.inspect before.input.readIndex
        (before.input.writeIndex - before.input.readIndex)])
  | requestLine {lineEnd methodEnd urlEnd : Nat}
      (status : before.request.currentState = .status)
      (found : search crlf before.input.contents = some lineEnd)
      (first : search space (before.input.contents.take lineEnd) = some methodEnd)
      (second : search space ((before.input.contents.take lineEnd).drop (methodEnd + 1)) =
        some urlEnd) :
      Iterated before { before.note (.inspect before.input.readIndex
          (before.input.writeIndex - before.input.readIndex) ::
            lineAccesses before.input.readIndex (before.input.readIndex + lineEnd) methodEnd
              urlEnd) with
        input.readIndex := before.input.readIndex + lineEnd + 2
        request := { withLine before.request (before.input.contents.take lineEnd) methodEnd
            urlEnd with
          currentState := .headers } }
  | headerLine {lineEnd colon : Nat} (headers : before.request.currentState = .headers)
      (found : search crlf before.input.contents = some lineEnd)
      (parted : search colonSpace (before.input.contents.take lineEnd) = some colon) :
      Iterated before { before.note (.inspect before.input.readIndex
          (before.input.writeIndex - before.input.readIndex) ::
            headerAccesses before.input.readIndex (before.input.readIndex + lineEnd) colon) with
        input.readIndex := before.input.readIndex + lineEnd + 2
        request := before.request.addHeader
          (headerOf (before.input.contents.take lineEnd) colon) }
  | lastLine {lineEnd : Nat} (headers : before.request.currentState = .headers)
      (found : search crlf before.input.contents = some lineEnd)
      (unparted : search colonSpace (before.input.contents.take lineEnd) = none) :
      Iterated before { before.note [.inspect before.input.readIndex
          (before.input.writeIndex - before.input.readIndex),
            .inspect before.input.readIndex lineEnd] with
        input.readIndex := before.input.readIndex + 2
        request.currentState := .done }

/-- A line that ends in the readable bytes lies in the block, with room behind it. -/
theorem placed_of_found (valid : before.input.Valid) {lineEnd : Nat}
    (found : search crlf before.input.contents = some lineEnd) :
    before.Placed before.input.readIndex (before.input.readIndex + lineEnd) ∧
      before.line before.input.readIndex (before.input.readIndex + lineEnd) =
        before.input.contents.take lineEnd ∧
      before.input.readIndex + lineEnd + 2 ≤ before.input.writeIndex ∧
      before.input.readIndex + lineEnd + 2 < 2 ^ 31 := by
  have within := search_fits found
  have two : crlf.length = 2 := rfl
  have length := valid.length_contents
  have line := line_of_contents valid (show lineEnd ≤ before.input.contents.length by omega)
  obtain ⟨start, ordered, stored, allocated, small⟩ := valid
  exact ⟨⟨start, by omega, by omega, by omega⟩, line, by omega, by omega⟩

/-- An execution of the loop body leaves the input valid. -/
theorem Iterated.valid (valid : before.input.Valid) (iterated : Iterated before after) :
    after.input.Valid := by
  have bound : ∀ {lineEnd}, search crlf before.input.contents = some lineEnd →
      before.input.readIndex + lineEnd + 2 ≤ before.input.writeIndex :=
    fun found => (placed_of_found valid found).2.2.1
  have moved : ∀ {readIndex : Int}, 0 ≤ readIndex → readIndex ≤ before.input.writeIndex →
      ({ before.input with readIndex } : Buffer).Valid :=
    fun first ordered => ⟨first, ordered, valid.stored, valid.allocated, valid.small⟩
  have start := valid.start
  cases iterated with
  | idle => exact valid
  | waiting => exact valid
  | requestLine _ found => exact moved (by omega) (bound found)
  | headerLine _ found => exact moved (by omega) (bound found)
  | lastLine _ found =>
    have room := bound found
    exact moved (by omega) (by omega)

/-- Where the headers are parsed, a line with a colon is a header. -/
theorem parseIteration_header (valid : before.input.Valid) {lineEnd colon : Nat}
    (headers : before.request.currentState = .headers)
    (found : search crlf before.input.contents = some lineEnd)
    (parted : search colonSpace (before.input.contents.take lineEnd) = some colon) :
    before.parseIteration = .ok { before.note (.inspect before.input.readIndex
        (before.input.writeIndex - before.input.readIndex) ::
          headerAccesses before.input.readIndex (before.input.readIndex + lineEnd) colon) with
      input.readIndex := before.input.readIndex + lineEnd + 2
      request := before.request.addHeader
        (headerOf (before.input.contents.take lineEnd) colon) } := by
  obtain ⟨placed, line, _, room⟩ := placed_of_found valid found
  have parsed := parseHeader_found (placed.note [.inspect before.input.readIndex
    (before.input.writeIndex - before.input.readIndex)]) room
    ((congrArg (search colonSpace) line).trans parted)
  rw [note_note] at parsed
  simp only [parseIteration, headers, findCRLF_eq valid, ok_bind, found, Option.map_some]
  refine parsed.trans ?_
  rw [← line]
  rfl

/-- Where the headers are parsed, a line without a colon is the last one. -/
theorem parseIteration_last (valid : before.input.Valid) {lineEnd : Nat}
    (headers : before.request.currentState = .headers)
    (found : search crlf before.input.contents = some lineEnd)
    (unparted : search colonSpace (before.input.contents.take lineEnd) = none) :
    before.parseIteration = .ok { before.note [.inspect before.input.readIndex
        (before.input.writeIndex - before.input.readIndex),
          .inspect before.input.readIndex lineEnd] with
      input.readIndex := before.input.readIndex + 2
      request.currentState := .done } := by
  obtain ⟨placed, line, _, room⟩ := placed_of_found valid found
  have parsed := parseHeader_last (placed.note [.inspect before.input.readIndex
    (before.input.writeIndex - before.input.readIndex)]) room
    ((congrArg (search colonSpace) line).trans unparted)
  have size : before.input.readIndex + lineEnd - before.input.readIndex = lineEnd := by omega
  rw [note_note] at parsed
  simp only [parseIteration, headers, findCRLF_eq valid, ok_bind, found, Option.map_some]
  refine parsed.trans ?_
  simp only [note, size, List.singleton_append]

/-- A request line is taken apart at its first two spaces. -/
theorem parseIteration_status (valid : before.input.Valid) {lineEnd methodEnd urlEnd : Nat}
    (status : before.request.currentState = .status)
    (found : search crlf before.input.contents = some lineEnd)
    (first : search space (before.input.contents.take lineEnd) = some methodEnd)
    (second : search space ((before.input.contents.take lineEnd).drop (methodEnd + 1)) =
      some urlEnd) :
    before.parseIteration = .ok { before.note (.inspect before.input.readIndex
        (before.input.writeIndex - before.input.readIndex) ::
          lineAccesses before.input.readIndex (before.input.readIndex + lineEnd) methodEnd
            urlEnd) with
      input.readIndex := before.input.readIndex + lineEnd + 2
      request := { withLine before.request (before.input.contents.take lineEnd) methodEnd
          urlEnd with
        currentState := .headers } } := by
  obtain ⟨placed, line, bound, room⟩ := placed_of_found valid found
  have within := search_fits first
  have one : space.length = 1 := rfl
  have length : (before.input.contents.take lineEnd).length ≤ lineEnd := List.length_take_le ..
  have taken : before.input.readIndex + lineEnd - before.input.readIndex ≠ 0 := by omega
  have size : before.input.readIndex + (before.input.readIndex + lineEnd -
    before.input.readIndex) + 2 = before.input.readIndex + lineEnd + 2 := by omega
  have same : (before.note [.inspect before.input.readIndex
      (before.input.writeIndex - before.input.readIndex)]).line before.input.readIndex
        (before.input.readIndex + lineEnd) = before.input.contents.take lineEnd := line
  have parsed := processStatusLine_found (placed.note [.inspect before.input.readIndex
    (before.input.writeIndex - before.input.readIndex)]) (same ▸ first) (same ▸ second)
  rw [note_note, same] at parsed
  simp only [parseIteration, status, findCRLF_eq valid, ok_bind, found, Option.map_some,
    parseStatus]
  refine (bind_of_ok parsed _).trans ?_
  simp only [ne_eq, taken, not_false_eq_true, ↓reduceIte]
  refine (bind_of_ok (skip_eq (by exact valid.start) (by omega) (by exact size ▸ room)) _).trans ?_
  rw [← size]
  rfl

/-- A request line with fewer spaces aborts the process. -/
theorem parseIteration_assertion (valid : before.input.Valid) {lineEnd : Nat}
    (status : before.request.currentState = .status)
    (found : search crlf before.input.contents = some lineEnd)
    (missing : ∀ methodEnd, search space (before.input.contents.take lineEnd) = some methodEnd →
      search space ((before.input.contents.take lineEnd).drop (methodEnd + 1)) = none) :
    before.parseIteration = .error .assertion := by
  obtain ⟨placed, line, _⟩ := placed_of_found valid found
  have failed := processStatusLine_missing (placed.note [.inspect before.input.readIndex
    (before.input.writeIndex - before.input.readIndex)]) (by
      intro methodEnd first
      have whole : search space (before.input.contents.take lineEnd) = some methodEnd :=
        line ▸ first
      exact (congrArg (fun line => search space (line.drop (methodEnd + 1))) line).trans
        (missing methodEnd whole))
  simp only [parseIteration, status, findCRLF_eq valid, ok_bind, found, Option.map_some,
    parseStatus]
  change (processStatusLine _ before.input.readIndex _ >>= _) = _
  rw [failed]
  rfl

/-- Every execution of the loop body that returns is one of these. -/
theorem parseIteration_cases (valid : before.input.Valid)
    (success : before.parseIteration = .ok after) : Iterated before after := by
  have searched := findCRLF_eq valid
  cases state : before.request.currentState with
  | status =>
    cases found : search crlf before.input.contents with
    | none =>
      simp only [parseIteration, state, searched, ok_bind, found] at success
      cases success
      exact .waiting found
    | some lineEnd =>
      by_cases missing : ∀ methodEnd, search space (before.input.contents.take lineEnd) =
          some methodEnd →
        search space ((before.input.contents.take lineEnd).drop (methodEnd + 1)) = none
      · rw [parseIteration_assertion valid state found missing] at success
        cases success
      · push Not at missing
        obtain ⟨methodEnd, first, present⟩ := missing
        obtain ⟨urlEnd, second⟩ := Option.ne_none_iff_exists'.mp present
        rw [parseIteration_status valid state found first second] at success
        cases success
        exact .requestLine state found first second
  | headers =>
    cases found : search crlf before.input.contents with
    | none =>
      simp only [parseIteration, state, searched, ok_bind, found] at success
      cases success
      exact .waiting found
    | some lineEnd =>
      cases parted : search colonSpace (before.input.contents.take lineEnd) with
      | some colon =>
        rw [parseIteration_header valid state found parted] at success
        cases success
        exact .headerLine state found parted
      | none =>
        rw [parseIteration_last valid state found parted] at success
        cases success
        exact .lastLine state found parted
  | body =>
    simp only [parseIteration, state] at success
    cases success
    exact .idle (by simp [state]) (by simp [state])
  | done =>
    simp only [parseIteration, state] at success
    cases success
    exact .idle (by simp [state]) (by simp [state])

end Parsing

end Yolanda.Lib
