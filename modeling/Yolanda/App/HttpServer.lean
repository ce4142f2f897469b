import Yolanda.App.HttpParser
import Yolanda.App.HttpResponse
import Yolanda.App.TcpConnection

namespace Yolanda.App

/-- `request_callback`, which may change the request as well. -/
abbrev RequestCallback := HttpRequest → HttpResponse → HttpRequest × HttpResponse

/-- What one call of `http_onMessage` meets: the callback of the server, and the
answers of the socket to the error response and to the response. -/
structure Turn where
  requestCallback : Option RequestCallback
  errorWrite : WriteResult
  responseWrite : WriteResult

/-- The body of the error response. -/
def badRequest : Bytes := ascii "HTTP/1.1 400 Bad Request\r\n\r\n"

/-- `http_onConnectionCompleted` -/
def httpOnConnectionCompleted (connection : TcpConnection) : TcpConnection :=
  { connection with request := some .new }

/-- `http_onWriteCompleted` -/
def httpOnWriteCompleted (connection : TcpConnection) : Except Fault TcpConnection :=
  .ok connection

/-- `http_onConnectionClosed` -/
def httpOnConnectionClosed (connection : TcpConnection) : TcpConnection :=
  { connection with request := none }

namespace Turn

/-- The request and the response after the callback, if there is one. -/
def respond (turn : Turn) (request : HttpRequest) : HttpRequest × HttpResponse :=
  match turn.requestCallback with
  | some callback => callback request .new
  | none => (request, .new)

/-- The call of the callback. -/
def calls (turn : Turn) (request : HttpRequest) : List Action :=
  match turn.requestCallback with
  | some _ => [.request request]
  | none => []

end Turn

/-- The reaction of `http_onMessage` to the value of `parse_http_request`. -/
def rejectMalformed (connection : TcpConnection) (ok : Int) (turn : Turn) :
    Except Fault TcpConnection :=
  if ok = 0 then do
    let (_, connection) ← connection.sendData badRequest turn.errorWrite
    return connection.shutdown
  else return connection

/-- The reaction of `http_onMessage` to a complete request. -/
def answerRequest (connection : TcpConnection) (request : HttpRequest) (turn : Turn) :
    Except Fault TcpConnection := do
  let connection := connection.record (turn.calls request)
  let (request, response) := turn.respond request
  let buffer ← response.encodeBuffer .new
  let (_, connection, _) ← connection.sendBuffer buffer turn.responseWrite
  let closes ← request.closeConnection
  let connection := if closes then connection.shutdown else connection
  return { connection with request := some request.reset }

/-- The part of `http_onMessage` behind the call of `parse_http_request`. -/
def reactToParsed (connection : TcpConnection) (ok : Int) (parsed : Parsing) (turn : Turn) :
    Except Fault TcpConnection := do
  let connection ← rejectMalformed { connection with
    inputBuffer := parsed.input
    request := some parsed.request } ok turn
  if parsed.request.curState = .done then answerRequest connection parsed.request turn
  else return connection

/-- `http_onMessage` -/
def httpOnMessage (fuel : Nat) (turn : Turn) (connection : TcpConnection) :
    Except Fault TcpConnection :=
  match connection.request with
  | none => .error .memory
  | some request => do
    let (ok, parsed) ← parseHttpRequest fuel connection.inputBuffer request
    reactToParsed connection ok parsed turn

/-- An event on the descriptor of a connection, with what its handler meets. -/
inductive HttpEvent where
  | read (received : Option Bytes) (turn : Turn)
  | writable (result : WriteResult)

/-- The activation of the channel of an HTTP connection. Events on a descriptor that
is no longer in the map of the loop are passed over. -/
def httpStep (fuel : Nat) (connection : TcpConnection) (event : HttpEvent) :
    Except Fault TcpConnection :=
  if connection.watched then
    match event with
    | .read received turn =>
      connection.handleRead (httpOnMessage fuel turn) httpOnConnectionClosed received
    | .writable result => connection.handleWrite httpOnWriteCompleted result
  else .ok connection

/-- A connection as `handle_connection_established` hands it to its loop. -/
def TcpConnection.established (self eventLoop : Nat) (connectedFd : Int) : TcpConnection :=
  httpOnConnectionCompleted (.new self eventLoop connectedFd)

end Yolanda.App
