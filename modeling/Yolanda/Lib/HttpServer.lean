import Yolanda.Lib.Encoders
import Yolanda.Lib.ParserAgreement
import Yolanda.Lib.ReadFailure
import Yolanda.Lib.SendPath

/-! The connections of the HTTP server of the C library, from `handle_read` to the response. -/

namespace Yolanda.Lib

open Foundation
open App (HttpRequestState RequestText WriteResult ascii connectionKey http10 keepAlive crlf
  colonSpace space)

/-- A pointer to a block, as far as it was stored to from its front. -/
def storedPointer (block : Cells Byte) : Pointer :=
  ⟨(block.cells.takeWhile Option.isSome).filterMap id, 0⟩

namespace RequestBlocks

/-- `http_request_close_connection` -/
def closeConnection (strncmp : Bytes → Bytes → Int) (request : RequestBlocks) :
    Except Stop Int := do
  let connection ← request.getHeader strncmp (.ofText connectionKey)
  let closing ← (match connection with
    | none => return false
    | some value => do
      let order ← HttpRequest.compare strncmp value (.ofText App.close)
      return decide (order = 0))
  if closing then return 1
  else
    match request.version with
    | none => return 0
    | some version => do
      let order ← HttpRequest.compare strncmp (storedPointer version) (.ofText http10)
      if order = 0 then
        match connection with
        | none => throw .memory
        | some value => do
          let order ← HttpRequest.compare strncmp value (.ofText keepAlive)
          if order = 1 then return 1 else return 0
      else return 0

/-- `http_request_clear`, which frees the strings of all entries it counts. -/
def clear (request : RequestBlocks) : Except Stop Unit :=
  if (List.range request.requestHeadersNumber).all fun index =>
    (request.requestHeaders.get index).isSome then .ok ()
  else .error .memory

end RequestBlocks

/-- `request_callback`, which may change the request as well. -/
abbrev RequestCallback := RequestBlocks → HttpResponse → RequestBlocks × HttpResponse

/-- What one call of `http_onMessage` meets: the callback of the server, the answers of the socket
to the error response and to the response, and whether `realloc` finds the memory. -/
structure Turn where
  requestCallback : Option RequestCallback
  errorWrite : WriteResult
  responseWrite : WriteResult
  memory : Bool

/-- A connection with its request, and the requests the callback has been called with. -/
structure HttpConnection extends Connection where
  request : Option RequestBlocks
  called : List RequestBlocks

namespace Turn

/-- The request and the response after the callback, if there is one. -/
def respond (turn : Turn) (request : RequestBlocks) : RequestBlocks × HttpResponse :=
  match turn.requestCallback with
  | some callback => callback request .new
  | none => (request, .new)

/-- The call of the callback. -/
def calls (turn : Turn) (request : RequestBlocks) : List RequestBlocks :=
  match turn.requestCallback with
  | some _ => [request]
  | none => []

end Turn

namespace HttpConnection

/-- `tcp_connection_new` and `http_onConnectionCompleted` -/
def established (self : Nat) (connectedFd : Int) : HttpConnection :=
  { toTcpConnection := .new self connectedFd
    inputBuffer := .new
    watched := true
    request := some .new
    called := [] }

/-- `tcp_connection_shutdown` -/
def shutdown (connection : HttpConnection) : HttpConnection :=
  { connection with
    trace := connection.trace ++ [.shutdown connection.outputBuffer.contents] }

/-- The reaction of `http_onMessage` to the value of `parse_http_request`. `sizeof` is applied to a
pointer. -/
def rejectMalformed (connection : HttpConnection) (ok : Int) (turn : Turn) :
    Except Stop HttpConnection :=
  if ok = 0 then do
    let (_, sent) ← connection.toTcpConnection.sendData
      (.ofText (ascii "HTTP/1.1 400 Bad Request\r\n\r\n")) 8 turn.errorWrite turn.memory
    return { connection with toTcpConnection := sent }.shutdown
  else return connection

/-- The reaction of `http_onMessage` to a complete request. -/
def answerRequest (strncmp : Bytes → Bytes → Int) (connection : HttpConnection)
    (request : RequestBlocks) (turn : Turn) : Except Stop HttpConnection := do
  let called := connection.called ++ turn.calls request
  let (request, response) := turn.respond request
  let buffer ← response.encodeBuffer turn.memory .new
  let (_, sent, _) ← connection.toTcpConnection.sendBuffer buffer turn.responseWrite turn.memory
  let connection := { connection with
    toTcpConnection := sent
    called := called }
  let closes ← request.closeConnection strncmp
  let connection := if closes ≠ 0 then connection.shutdown else connection
  return { connection with request := some request.reset }

/-- `http_onMessage` -/
def httpOnMessage (strncmp : Bytes → Bytes → Int) (fuel : Nat) (turn : Turn)
    (connection : HttpConnection) : Except NoReturn HttpConnection :=
  match connection.request with
  | none => .error (.stopped .memory)
  | some request => do
    let (ok, parsed) ← parseHttpRequest fuel ⟨connection.inputBuffer, request, []⟩
    let connection ← (rejectMalformed { connection with
      inputBuffer := parsed.input
      request := some parsed.request } ok turn).mapError .stopped
    if parsed.request.currentState = .done then
      (connection.answerRequest strncmp parsed.request turn).mapError .stopped
    else return connection

/-- `http_onConnectionClosed` -/
def httpOnConnectionClosed (connection : HttpConnection) : Except Stop HttpConnection :=
  match connection.request with
  | none => .ok connection
  | some request => do
    request.clear
    return { connection with request := none }

/-- `handle_connection_closed`. The loop empties the slot of the channel at once. -/
def handleConnectionClosed (connection : HttpConnection) : Except Stop HttpConnection :=
  httpOnConnectionClosed { connection with
    watched := false
    trace := connection.trace ++ [.remove connection.outputBuffer.contents, .closed] }

/-- `handle_read` -/
def handleRead (strncmp : Bytes → Bytes → Int) (fuel : Nat) (connection : HttpConnection)
    (received : Option Bytes) (turn : Turn) : Except NoReturn HttpConnection := do
  let (result, inputBuffer) ←
    (connection.inputBuffer.socketRead received turn.memory).mapError .stopped
  let connection := { connection with inputBuffer }
  if result > 0 then httpOnMessage strncmp fuel turn connection
  else connection.handleConnectionClosed.mapError .stopped

end HttpConnection

/-- An event on the descriptor of a connection, with what its handler meets. -/
inductive HttpEvent where
  | read (received : Option Bytes) (turn : Turn)
  | writable (result : WriteResult)

/-- The activation of the channel of an HTTP connection. `http_onWriteCompleted` does nothing, and
events on a descriptor that is no longer in the map of the loop are passed over. -/
def httpStep (strncmp : Bytes → Bytes → Int) (fuel : Nat) (connection : HttpConnection)
    (event : HttpEvent) : Except NoReturn HttpConnection :=
  if connection.watched then
    match event with
    | .read received turn => connection.handleRead strncmp fuel received turn
    | .writable result => do
      let written ← (connection.toTcpConnection.handleWrite result).mapError .stopped
      return { connection with toTcpConnection := written }
  else .ok connection

end Yolanda.Lib
