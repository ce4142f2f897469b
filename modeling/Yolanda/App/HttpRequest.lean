import Mathlib.Data.List.AList
import Yolanda.Machine

namespace Yolanda.App

/-- The bytes of an ASCII literal. -/
def ascii (literal : String) : Bytes :=
  literal.toList.map fun char => UInt8.ofNat char.toNat

/-- `enum http_request_state` -/
inductive HttpRequestState where
  | status
  | headers
  | body
  | done
  deriving DecidableEq, Repr

/-- `std::map<std::string, std::string>` -/
abbrev Headers := AList fun _ : Bytes => Bytes

/-- `emplace` leaves an existing key alone. -/
def Headers.emplace (headers : Headers) (key value : Bytes) : Headers :=
  if key ∈ headers then headers else headers.insert key value

/-- `struct http_request` -/
structure HttpRequest where
  version : Bytes
  method : Bytes
  url : Bytes
  curState : HttpRequestState
  headers : Headers

/-- A request as its constructor leaves it. -/
def HttpRequest.new : HttpRequest :=
  { version := [], method := [], url := [], curState := .status, headers := ∅ }

/-- `clear` -/
def HttpRequest.clear (request : HttpRequest) : HttpRequest :=
  { request with headers := ∅, version := [], method := [], url := [], curState := .status }

/-- `reset` -/
def HttpRequest.reset (request : HttpRequest) : HttpRequest := request.clear

/-- A `const char *` read as a string ends at its first NUL. -/
def cString (bytes : Bytes) : Bytes := bytes.takeWhile (· ≠ 0)

/-- `get_header`, with `none` for `nullptr`. -/
def HttpRequest.getHeader (request : HttpRequest) (key : Bytes) : Option Bytes :=
  (request.headers.lookup key).map cString

def http10 : Bytes := ascii "HTTP/1.0"

def keepAlive : Bytes := ascii "Keep-Alive"

def close : Bytes := ascii "close"

def connectionKey : Bytes := ascii "Connection"

/-- `close_connection`. `KEEP_ALIVE.compare` reads through the pointer it is given,
so an absent header is a memory fault there. -/
def HttpRequest.closeConnection (request : HttpRequest) : Except Fault Bool :=
  let connection := request.getHeader (ascii "Connection")
  if connection = some close then .ok true
  else if request.version = http10 then
    match connection with
    | none => .error .memory
    | some value => .ok (value ≠ keepAlive)
  else .ok false

/-- `close_connection` fails exactly on an `HTTP/1.0` request without the header. -/
theorem HttpRequest.closeConnection_defined (request : HttpRequest) :
    (∃ closes, request.closeConnection = .ok closes) ↔
      ¬ (request.version = http10 ∧ request.headers.lookup (ascii "Connection") = none) := by
  unfold closeConnection getHeader
  cases found : request.headers.lookup (ascii "Connection") with
  | none =>
    by_cases old : request.version = http10
    · simp [old]
    · simp [old]
  | some value =>
    by_cases closing : cString value = close
    · simp [closing]
    · by_cases old : request.version = http10
      · simp [closing, old, em]
      · simp [closing, old]

theorem Headers.lookup_emplace (headers : Headers) (key value other : Bytes) :
    (headers.emplace key value).lookup other =
      (headers.lookup other).or (if other = key then some value else none) := by
  unfold Headers.emplace
  by_cases same : other = key
  · subst other
    by_cases present : key ∈ headers
    · obtain ⟨old, found⟩ := Option.isSome_iff_exists.mp (AList.lookup_isSome.mpr present)
      simp [present, found]
    · simp [present, AList.lookup_eq_none.mpr present]
  · by_cases present : key ∈ headers
    · simp [present, same]
    · simp [present, same, AList.lookup_insert_ne same]

end Yolanda.App
