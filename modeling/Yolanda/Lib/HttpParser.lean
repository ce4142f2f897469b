import Yolanda.App.HttpParser
import Yolanda.Foundation.Cells
import Yolanda.Lib.HttpRequest

/-! The parser of the C library, with the blocks it allocates, the stores it makes to them, and
the bytes of the input it inspects. -/

namespace Yolanda.Lib

open Foundation
open App (HttpRequestState space colonSpace crlf cString)

/-- What the parser does to memory, apart from its stores. A range of the input is given by
where it starts in the block. -/
inductive Access where
  | inspect (start count : Int)
  | allocate (size : Int)
  | copy (size : Int)
  deriving DecidableEq, Repr

/-- A `ptrdiff_t` that is kept in an `int`. -/
def intOfDifference (difference : Int) : Int :=
  Int.bmod difference (2 ^ 32)

/-- The bytes `strncpy` stores: those up to a zero, and zeros behind them. -/
def padded (source : Bytes) : Bytes :=
  cString source ++ List.replicate (source.length - (cString source).length) 0

/-- `struct request_header`, with the blocks of its strings. -/
structure HeaderBlocks where
  key : Cells Byte
  value : Cells Byte
  deriving DecidableEq

/-- `sizeof(struct http_request)` -/
def sizeofHttpRequest : Nat := 48

/-- `sizeof(struct request_header)` -/
def sizeofRequestHeader : Nat := 16

/-- `INIT_REQUEST_HEADER_SIZE` -/
def initRequestHeaderSize : Nat := 128

/-- The entries that fit in the block of `http_request_new`. -/
def headerCapacity : Nat := sizeofHttpRequest * initRequestHeaderSize / sizeofRequestHeader

/-- `struct http_request`, with the blocks its pointers address. -/
structure RequestBlocks where
  version : Option (Cells Byte)
  method : Option (Cells Byte)
  url : Option (Cells Byte)
  currentState : HttpRequestState
  requestHeaders : Cells HeaderBlocks
  requestHeadersNumber : Nat
  deriving DecidableEq

namespace RequestBlocks

/-- `http_request_new` -/
def new : RequestBlocks :=
  { version := none
    method := none
    url := none
    currentState := .status
    requestHeaders := .allocate headerCapacity
    requestHeadersNumber := 0 }

/-- `http_request_reset`, which leaves the table as it is. -/
def reset (request : RequestBlocks) : RequestBlocks :=
  { request with
    version := none
    method := none
    url := none
    currentState := .status
    requestHeadersNumber := 0 }

/-- `http_request_add_header` -/
def addHeader (request : RequestBlocks) (header : HeaderBlocks) : RequestBlocks :=
  { request with
    requestHeaders := request.requestHeaders.put request.requestHeadersNumber header
    requestHeadersNumber := request.requestHeadersNumber + 1 }

end RequestBlocks

/-- The objects `parse_http_request` works on, and what it did to memory. -/
structure Parsing where
  input : Buffer
  request : RequestBlocks
  log : List Access

namespace Parsing

def note (parsing : Parsing) (accesses : List Access) : Parsing :=
  { parsing with log := parsing.log ++ accesses }

/-- The bytes of a range of the input, as far as they lie in the block. -/
def range (parsing : Parsing) (start count : Int) : Bytes :=
  window parsing.input.data start.toNat (start + count).toNat

/-- `memmem` on a range of the input, as the place where the pattern stands. -/
def memmem (parsing : Parsing) (start count : Int) (pattern : Bytes) : Option Int × Parsing :=
  ((search pattern (parsing.range start count)).map fun (offset : Nat) => start + offset,
    parsing.note [.inspect start count])

/-- `malloc(size)`, `strncpy` of `count` bytes from `start`, and the store of a zero to the place
`terminator`. -/
def copyString (parsing : Parsing) (start count size terminator : Int) : Cells Byte × Parsing :=
  (((Cells.allocate (sizeOfInt size)).putAll 0 (padded (parsing.range start count))).put
      terminator 0,
    parsing.note [.allocate size, .inspect start count, .copy count])

/-- The steps of `process_status_line` for `method` and for `url`: the bytes from `start` up to the
next space, with the zero at the place `size + 1` of a block of `size + 1` bytes. -/
def takeField (parsing : Parsing) (start stop : Int) :
    Except Stop (Int × Cells Byte × Parsing) := do
  let (found, parsing) := parsing.memmem start (stop - start) space
  match found with
  | none => throw .assertion
  | some space => do
    let size := intOfDifference (space - start)
    let behind ← intResult (size + 1)
    let (field, parsing) := parsing.copyString start (space - start) behind behind
    return (space, field, parsing)

/-- `process_status_line` on the bytes from `start` up to `stop`. -/
def processStatusLine (parsing : Parsing) (start stop : Int) : Except Stop (Int × Parsing) := do
  let size := intOfDifference (stop - start)
  let (space, method, parsing) ← parsing.takeField start stop
  let parsing := { parsing with request.method := some method }
  let (space, url, parsing) ← parsing.takeField (space + 1) stop
  let parsing := { parsing with request.url := some url }
  let start := space + 1
  let (version, parsing) :=
    parsing.copyString start (stop - start) (stop - start + 1) (stop - start + 1)
  return (size, { parsing with request.version := some version })

/-- `input->readIndex += size; input->readIndex += 2` -/
def skip (parsing : Parsing) (size : Int) : Except Stop Parsing := do
  let behind ← intResult (parsing.input.readIndex + size)
  let readIndex ← intResult (behind + 2)
  return { parsing with input.readIndex := readIndex }

/-- `buffer_find_CRLF` -/
def findCRLF (parsing : Parsing) : Except Stop (Option Int × Parsing) := do
  let readable ← parsing.input.readableSize
  return parsing.memmem parsing.input.readIndex readable App.crlf

/-- The `REQUEST_STATUS` branch for a line that ends at `crlf`. -/
def parseStatus (parsing : Parsing) (crlf : Int) : Except Stop Parsing := do
  let (size, parsing) ← parsing.processStatusLine parsing.input.readIndex crlf
  if size ≠ 0 then do
    let parsing ← parsing.skip size
    return { parsing with request.currentState := .headers }
  else return parsing

/-- The `REQUEST_HEADERS` branch for a line that ends at `crlf`. -/
def parseHeader (parsing : Parsing) (crlf : Int) : Except Stop Parsing := do
  let start := parsing.input.readIndex
  let size := intOfDifference (crlf - start)
  let (colon, parsing) := parsing.memmem start size colonSpace
  match colon with
  | some colon => do
    let (key, parsing) :=
      parsing.copyString start (colon - start) (colon - start + 1) (colon - start)
    let (value, parsing) := parsing.copyString (colon + 2) (crlf - colon - 2)
      (crlf - colon - 2 + 1) (crlf - colon - 2)
    let parsing := { parsing with request := parsing.request.addHeader ⟨key, value⟩ }
    parsing.skip size
  | none => do
    let parsing ← parsing.skip 0
    return { parsing with request.currentState := .done }

/-- One execution of the loop body of `parse_http_request`. -/
def parseIteration (parsing : Parsing) : Except Stop Parsing :=
  match parsing.request.currentState with
  | .status => do
    let (found, parsing) ← parsing.findCRLF
    match found with
    | some crlf => parsing.parseStatus crlf
    | none => return parsing
  | .headers => do
    let (found, parsing) ← parsing.findCRLF
    match found with
    | some crlf => parsing.parseHeader crlf
    | none => return parsing
  | _ => .ok parsing

end Parsing

end Yolanda.Lib
