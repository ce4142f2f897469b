import Yolanda.App.HttpParser

/-! What one execution of the parser's loop body does to a buffer whose unread bytes
start with a complete line. Every later result about the parser uses these steps. -/

namespace Yolanda.App

open Foundation

theorem crlf_borderless : Borderless crlf := by decide

theorem space_borderless : Borderless space := by decide

theorem colonSpace_borderless : Borderless colonSpace := by decide

/-- Everything from the read position to the end of the string. -/
def Buffer.unread (buffer : Buffer) : Bytes := buffer.data.drop buffer.readIndex

def Buffer.consume (buffer : Buffer) (count : Nat) : Buffer :=
  { buffer with readIndex := buffer.readIndex + count }

theorem Buffer.unread_consume (buffer : Buffer) (count : Nat) :
    (buffer.consume count).unread = buffer.unread.drop count :=
  (List.drop_drop ..).symm

@[simp] theorem Buffer.consume_consume (buffer : Buffer) (first second : Nat) :
    (buffer.consume first).consume second = buffer.consume (first + second) := by
  simp [consume, Nat.add_assoc]

section Line

variable {input : Buffer} {line rest : Bytes}

theorem findCRLF_line (unread : input.unread = line ++ crlf ++ rest) (clear : ¬ crlf <:+: line) :
    input.findCRLF = some (input.readIndex + line.length) := by
  have found := search_append crlf_borderless clear rest
  rw [← unread] at found
  simp only [Buffer.findCRLF]
  rw [show input.data.drop input.readIndex = input.unread from rfl, found, Option.map_some]

theorem window_line (unread : input.unread = line ++ crlf ++ rest) :
    window input.data input.readIndex (input.readIndex + line.length) = line := by
  rw [window_add]
  change input.unread.take line.length = line
  rw [unread, List.append_assoc, List.take_left]

theorem unread_line (unread : input.unread = line ++ crlf ++ rest) :
    (input.consume (line.length + 2)).unread = rest := by
  have size : line.length + 2 = (line ++ crlf).length := by simp [crlf]
  rw [Buffer.unread_consume, unread, size, List.drop_left]

@[simp] theorem skip_ofNat (input : Buffer) (size : Nat) :
    input.skip size = input.consume (size + 2) := by
  have sum : (size : Int) + 2 = (size + 2 : Nat) := rfl
  rw [Buffer.skip, sum, sizeAddInt_ofNat, Buffer.consume]

private theorem skip_line (short : line.length < 2 ^ 31) :
    input.skip (intOfSize line.length) = input.consume (line.length + 2) := by
  rw [intOfSize_of_lt short, skip_ofNat]

private theorem memmem_line (unread : input.unread = line ++ crlf ++ rest) (short : line.length < 2 ^ 31)
    (pattern : Bytes) :
    memmem input.data input.readIndex (sizeOfInt (intOfSize line.length)) pattern =
      .ok (search pattern line) := by
  have sizes := congrArg List.length unread
  simp only [Buffer.unread, List.length_drop, List.length_append, crlf, List.length_cons,
    List.length_nil] at sizes
  have inside : input.readIndex + line.length ≤ input.data.length := by omega
  rw [sizeOfInt_intOfSize short, memmem, if_pos inside, window_line unread]

end Line

/-- A request line cut at its first two spaces. -/
structure SplitsAs (line method url version : Bytes) : Prop where
  split : line = method ++ space ++ url ++ space ++ version
  method_clear : ¬ space <:+: method
  url_clear : ¬ space <:+: url

/-- The request after `process_status_line` has inserted the three fields. -/
def HttpRequest.withLine (request : HttpRequest) (method url version : Bytes) : HttpRequest :=
  { request with
    method := method ++ request.method
    url := url ++ request.url
    version := version ++ request.version }

theorem processStatusLine_ok (request : HttpRequest) (split : SplitsAs line method url version) :
    processStatusLine line request =
      .ok (intOfSize line.length, request.withLine method url version) := by
  have first : search space line = some method.length := by
    have := search_append space_borderless split.method_clear (url ++ space ++ version)
    rw [split.split]
    simpa only [List.append_assoc] using this
  have rest : line.drop (method.length + 1) = url ++ space ++ version := by
    have size : method.length + 1 = (method ++ space).length := by simp [space]
    have shape : line = (method ++ space) ++ (url ++ space ++ version) := by
      rw [split.split]
      simp only [List.append_assoc]
    rw [shape, size, List.drop_left]
  have second : search space (url ++ space ++ version) = some url.length :=
    search_append space_borderless split.url_clear version
  have methodEq : line.take method.length = method := by
    rw [split.split]
    simp only [List.append_assoc, List.take_left]
  have versionEq : (url ++ space ++ version).drop (url.length + 1) = version := by
    have size : url.length + 1 = (url ++ space).length := by simp [space]
    rw [size, List.drop_left]
  have urlEq : (url ++ space ++ version).take url.length = url := by
    simp only [List.append_assoc, List.take_left]
  unfold processStatusLine
  simp only [first, rest, second, methodEq, versionEq, urlEq, HttpRequest.withLine]

/-- A line is either cut at two spaces or fails an assertion. -/
theorem processStatusLine_cases (line : Bytes) (request : HttpRequest) :
    (∃ method url version, SplitsAs line method url version) ∨
      processStatusLine line request = .error .assertion := by
  cases first : search space line with
  | none => exact .inr (by simp only [processStatusLine, first])
  | some methodEnd =>
    cases second : search space (line.drop (methodEnd + 1)) with
    | none => exact .inr (by simp only [processStatusLine, first, second])
    | some urlEnd =>
      refine .inl ⟨line.take methodEnd, (line.drop (methodEnd + 1)).take urlEnd,
        (line.drop (methodEnd + 1)).drop (urlEnd + 1), ?_,
        search_clear space_borderless first, search_clear space_borderless second⟩
      have outer := search_split first
      have inner := search_split second
      simp only [space, List.length_singleton] at outer inner ⊢
      rw [List.append_assoc _ _ (List.drop _ _), List.append_assoc, List.append_assoc,
        ← List.append_assoc ((line.drop (methodEnd + 1)).take urlEnd), ← inner, ← List.append_assoc]
      exact outer

theorem SplitsAs.nonempty (split : SplitsAs line method url version) : 0 < line.length := by
  rw [split.split]
  simp only [List.length_append, space, List.length_singleton]
  omega

section Step

variable {input : Buffer} {request : HttpRequest} {line rest : Bytes}

/-- The request line is consumed with its line end. -/
theorem step_status (waiting : request.curState = .status)
    (unread : input.unread = line ++ crlf ++ rest) (clear : ¬ crlf <:+: line)
    (short : line.length < 2 ^ 31) (split : SplitsAs line method url version) :
    parseLoop.Step ⟨input, request⟩ ⟨input.consume (line.length + 2),
      { request.withLine method url version with curState := .headers }⟩ := by
  have positive := split.nonempty
  have size : intOfSize line.length ≠ 0 := by
    rw [intOfSize_of_lt short]
    omega
  refine ⟨by simp [parseLoop, waiting], ?_⟩
  simp only [parseLoop, parseIteration, waiting, findCRLF_line unread clear, parseStatus,
    window_line unread]
  rw [processStatusLine_ok request split, ok_bind]
  simp only [size, ne_eq, not_false_eq_true, ↓reduceIte, skip_line short]
  rfl

/-- A request line with fewer than two spaces aborts the process. -/
theorem body_status_error (waiting : request.curState = .status)
    (unread : input.unread = line ++ crlf ++ rest) (clear : ¬ crlf <:+: line)
    (fails : processStatusLine line request = .error .assertion) :
    parseLoop.body ⟨input, request⟩ = .error .assertion := by
  simp only [parseLoop, parseIteration, waiting, findCRLF_line unread clear, parseStatus,
    window_line unread]
  rw [fails, error_bind]

/-- A line with `": "` becomes a header. -/
theorem step_header (waiting : request.curState = .headers)
    (unread : input.unread = line ++ crlf ++ rest) (clear : ¬ crlf <:+: line)
    (short : line.length < 2 ^ 31) (found : search colonSpace line = some colon) :
    parseLoop.Step ⟨input, request⟩ ⟨input.consume (line.length + 2), { request with
      headers := request.headers.emplace (line.take colon) (line.drop (colon + 2)) }⟩ := by
  refine ⟨by simp [parseLoop, waiting], ?_⟩
  simp only [parseLoop, parseIteration, waiting, findCRLF_line unread clear, parseHeader,
    window_line unread]
  rw [memmem_line unread short, ok_bind, found, skip_line short]
  rfl

/-- A line without `": "` ends the request and gives up two bytes. -/
theorem step_last (waiting : request.curState = .headers)
    (unread : input.unread = line ++ crlf ++ rest) (clear : ¬ crlf <:+: line)
    (short : line.length < 2 ^ 31) (plain : ¬ colonSpace <:+: line) :
    parseLoop.Step ⟨input, request⟩
      ⟨input.consume 2, { request with curState := .done }⟩ := by
  refine ⟨by simp [parseLoop, waiting], ?_⟩
  simp only [parseLoop, parseIteration, waiting, findCRLF_line unread clear, parseHeader,
    window_line unread]
  rw [memmem_line unread short, ok_bind, search_eq_none.mpr plain]
  rfl

theorem findCRLF_missing (missing : ¬ crlf <:+: input.unread) : input.findCRLF = none := by
  simp only [Buffer.findCRLF, Option.map_eq_none_iff]
  exact search_eq_none.mpr missing

/-- Without a line end in the string the body changes nothing. -/
theorem body_stuck (missing : ¬ crlf <:+: input.unread) :
    parseLoop.body ⟨input, request⟩ = .ok ⟨input, request⟩ := by
  simp only [parseLoop, parseIteration, findCRLF_missing missing]
  cases request.curState <;> rfl

/-- The loop spins forever on a string without a line end. -/
theorem not_returns_of_no_line (running : request.curState ≠ .done)
    (missing : ¬ crlf <:+: input.unread) : ¬ parseLoop.Returns ⟨input, request⟩ final :=
  Loop.not_returns_of_stuck (by simp [parseLoop, running]) (body_stuck missing)

end Step

end Yolanda.App
