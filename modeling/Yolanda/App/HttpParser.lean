import Yolanda.App.Buffer
import Yolanda.App.HttpRequest
import Yolanda.Foundation.Loop

namespace Yolanda.App

open Foundation

/-- `" "` -/
def space : Bytes := [32]

/-- `": "` -/
def colonSpace : Bytes := [58, 32]

/-- `memmem` on the `length` cells of `block` from `start` on, as an offset into them. -/
def memmem (block : Bytes) (start length : Nat) (pattern : Bytes) : Except Fault (Option Nat) :=
  if start + length ≤ block.length then .ok (search pattern (window block start (start + length)))
  else .error .memory

/-- `process_status_line` on the bytes from `start` up to `end`. The fields are inserted
in front of what the request already holds; the returned size is an `int`. -/
def processStatusLine (line : Bytes) (request : HttpRequest) : Except Fault (Int × HttpRequest) :=
  match search space line with
  | none => .error .assertion
  | some methodEnd =>
    let request := { request with method := line.take methodEnd ++ request.method }
    let rest := line.drop (methodEnd + 1)
    match search space rest with
    | none => .error .assertion
    | some urlEnd =>
      let request := { request with url := rest.take urlEnd ++ request.url }
      let version := rest.drop (urlEnd + 1)
      .ok (intOfSize line.length, { request with version := version ++ request.version })

/-- The two objects `parse_http_request` works on. -/
structure Parsing where
  input : Buffer
  request : HttpRequest

/-- `readIndex += size; readIndex += 2`. The two sums wrap as one. -/
def Buffer.skip (buffer : Buffer) (size : Int) : Buffer :=
  { buffer with readIndex := sizeAddInt buffer.readIndex (size + 2) }

/-- The `REQUEST_STATUS` branch for a line that ends at `crlf`. -/
def parseStatus (crlf : Nat) : Parsing → Except Fault Parsing
  | ⟨input, request⟩ => do
    let (size, request) ← processStatusLine (window input.data input.readIndex crlf) request
    if size ≠ 0 then return ⟨input.skip size, { request with curState := .headers }⟩
    else return ⟨input, request⟩

/-- The `REQUEST_HEADERS` branch for a line that ends at `crlf`. A line without
`": "` counts as the last one, whatever it holds. -/
def parseHeader (crlf : Nat) : Parsing → Except Fault Parsing
  | ⟨input, request⟩ => do
    let line := window input.data input.readIndex crlf
    let size := intOfSize line.length
    match ← memmem input.data input.readIndex (sizeOfInt size) colonSpace with
    | some colon =>
      let headers := request.headers.emplace (line.take colon) (line.drop (colon + 2))
      return ⟨input.skip size, { request with headers }⟩
    | none =>
      return ⟨{ input with readIndex := input.readIndex + 2 }, { request with curState := .done }⟩

/-- One execution of the loop body of `parse_http_request`. -/
def parseIteration (state : Parsing) : Except Fault Parsing :=
  match state.request.curState, state.input.findCRLF with
  | .status, some crlf => parseStatus crlf state
  | .headers, some crlf => parseHeader crlf state
  | _, _ => .ok state

/-- The loop of `parse_http_request`. -/
def parseLoop : Loop Parsing Fault where
  done state := state.request.curState = .done
  body := parseIteration
  unfinished := .unfinished

/-- `parse_http_request`: the value of `ok`, with the buffer and request it leaves.
`fuel` bounds the rounds of the loop. -/
def parseHttpRequest (fuel : Nat) (input : Buffer) (request : HttpRequest) :
    Except Fault (Int × Parsing) := do
  let final ← parseLoop.run fuel ⟨input, request⟩
  return (1, final)

end Yolanda.App
