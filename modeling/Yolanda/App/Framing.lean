import Yolanda.App.HalfClose
import Yolanda.Foundation.Lines

/-! How the client finds the end of a response. The encoder announces it from
`keep_connected`, and `http_onMessage` shuts the connection down by what the request says. -/

namespace Yolanda.App

open Foundation TcpConnection

/-- `"Connection: close"` -/
def closeLine : Bytes := ascii "Connection: close"

/-- `"Connection: Keep-Alive"` -/
def keepAliveLine : Bytes := ascii "Connection: Keep-Alive"

/-- `"Content-Length: %lu"` -/
def lengthLine (length : Nat) : Bytes := ascii "Content-Length: " ++ decimal length

/-- The data of a `send_data`, and whether a `shutdown` follows before the next one. -/
structure Reply where
  data : Bytes
  closed : Bool

/-- The calls bring a `shutdown` before they bring data. -/
def shutsDown : List Action → Bool
  | [] => false
  | .shutdown _ :: _ => true
  | .send _ _ :: _ => false
  | _ :: actions => shutsDown actions

/-- The replies among the calls of a connection. -/
def replies : List Action → List Reply
  | [] => []
  | .send data _ :: actions => ⟨data, shutsDown actions⟩ :: replies actions
  | _ :: actions => replies actions

/-- The client can tell where the reply ends, and the reply announces what happens. -/
structure Reply.Delimited (reply : Reply) : Prop where
  framed : reply.closed = true ∨ ∃ lines body, Headed crlf reply.data lines body ∧
    lengthLine body.length ∈ lines
  closing : ∀ lines body, Headed crlf reply.data lines body → closeLine ∈ lines →
    reply.closed = true
  lasting : ∀ lines body, Headed crlf reply.data lines body → keepAliveLine ∈ lines →
    reply.closed = false

/-- No field breaks a line of the head, and the size of the body is a `size_t`. -/
structure HttpResponse.Plain (response : HttpResponse) : Prop where
  message : ¬ crlf <:+: response.statusMessage
  headers : ∀ key value, response.headers.lookup key = some value →
    ¬ crlf <:+: key ∧ ¬ crlf <:+: value
  body : response.body.length < 2 ^ 64

/-- The response announces a shutdown exactly when there is one, and no header of its own
contradicts it. -/
structure HttpResponse.Frames (response : HttpResponse) (closed : Bool) : Prop where
  flag : closed = decide (response.keepConnected ≠ 0)
  header : response.headers.lookup (ascii "Connection") ≠
    some (if response.keepConnected ≠ 0 then keepAlive else close)

section Text

variable {text : Bytes} {byte : Byte}

theorem decimal_digit {number : Nat} (member : byte ∈ decimal number) :
    48 ≤ byte.toNat ∧ byte.toNat ≤ 57 := by
  obtain ⟨digit, found, same⟩ := List.mem_map.mp member
  have range := Nat.isDigit_of_mem_toDigits (by decide) (by decide) found
  simp only [Char.isDigit, Bool.and_eq_true, decide_eq_true_eq] at range
  obtain ⟨least, most⟩ := range
  have bounds : 48 ≤ digit.toNat ∧ digit.toNat ≤ 57 := ⟨least, most⟩
  rw [← same, UInt8.toNat_ofNat']
  omega

/-- The characters of a number are digits and, of a negative one, a minus sign. -/
theorem decimal_range {number : Int} (member : byte ∈ decimal number) :
    45 ≤ byte.toNat ∧ byte.toNat ≤ 57 := by
  cases number with
  | ofNat number =>
    obtain ⟨least, most⟩ := decimal_digit member
    omega
  | negSucc number =>
    rcases List.mem_cons.mp member with sign | digit
    · rw [sign]
      decide
    · have digits : byte ∈ decimal (number + 1) := digit
      obtain ⟨least, most⟩ := decimal_digit digits
      omega

theorem mem_of_mem_formatted (member : byte ∈ HttpResponse.formatted text) : byte ∈ text := by
  have front : HttpResponse.formatted text <+: snprintf 256 text := List.takeWhile_prefix _
  have nonzero : byte ≠ 0 := by
    simpa using List.all_eq_true.mp List.all_takeWhile byte member
  rcases List.mem_append.mp (front.subset member) with kept | last
  · exact List.mem_of_mem_take kept
  · exact absurd (List.mem_singleton.mp last) nonzero

/-- `snprintf` leaves a text without NUL that fits as it is. -/
theorem cString_snprintf {size : Nat} (fits : text.length < size) (nonzero : (0 : Byte) ∉ text) :
    cString (snprintf size text) = text := by
  have whole : snprintf size text = text ++ [0] := by
    rw [snprintf, List.take_of_length_le (Nat.le_sub_one_of_lt fits)]
  rw [cString, whole, List.takeWhile_append_of_pos]
  · exact List.append_nil _
  · intro byte member
    simp only [decide_eq_true_eq]
    intro zero
    exact nonzero (zero ▸ member)

/-- A text without NUL that fits the array is formatted as it is. -/
theorem formatted_eq (fits : text.length ≤ 255) (nonzero : (0 : Byte) ∉ text) :
    HttpResponse.formatted text = text :=
  cString_snprintf (Nat.lt_succ_of_le fits) nonzero

end Text

namespace HttpResponse

variable {response : HttpResponse} {line : Bytes} {closed : Bool}

def statusLine (response : HttpResponse) : Bytes :=
  formatted (ascii "HTTP/1.1 " ++ decimal response.statusCode ++ ascii " ") ++
    response.statusMessage

def connectionLines (response : HttpResponse) : List Bytes :=
  if response.keepConnected ≠ 0 then [closeLine]
  else [lengthLine response.body.length, keepAliveLine]

def headerLine (header : Bytes × Bytes) : Bytes := header.1 ++ (ascii ": " ++ header.2)

/-- The lines of the head. -/
def headLines (response : HttpResponse) : List Bytes :=
  response.statusLine :: (response.connectionLines ++ response.sortedHeaders.map headerLine)

theorem mem_sortedHeaders {key value : Bytes} :
    (key, value) ∈ response.sortedHeaders ↔ response.headers.lookup key = some value := by
  rw [sortedHeaders, List.mem_insertionSort, List.mem_map]
  constructor
  · rintro ⟨⟨first, second⟩, member, same⟩
    cases same
    exact AList.mem_lookup_iff.mpr member
  · intro found
    exact ⟨⟨key, value⟩, AList.mem_lookup_iff.mp found, rfl⟩

private theorem statusLine_starts (response : HttpResponse) :
    ∃ rest, response.statusLine = 72 :: rest := by
  have starts : ascii "HTTP/1.1 " = 72 :: ascii "TTP/1.1 " := by decide
  rw [statusLine, starts]
  exact ⟨_, rfl⟩

private theorem lengthLine_formatted (short : response.body.length < 2 ^ 64) :
    formatted (ascii "Content-Length: " ++ decimal response.body.length ++ ascii "\r\n") =
      lengthLine response.body.length ++ crlf := by
  have digits : (decimal response.body.length).length ≤ 20 := by
    change ((Nat.toDigits 10 response.body.length).map _).length ≤ 20
    rw [List.length_map, Nat.length_toDigits_le_iff (by decide) (by decide)]
    omega
  apply formatted_eq
  · have front : (ascii "Content-Length: ").length = 16 := by decide
    have back : (ascii "\r\n").length = 2 := by decide
    rw [List.length_append, List.length_append, front, back]
    omega
  · intro member
    rcases List.mem_append.mp member with early | last
    · rcases List.mem_append.mp early with front | digit
      · exact absurd front (by decide)
      · exact absurd (decimal_digit digit).1 (by decide)
    · exact absurd last (by decide)

private theorem statusLine_clear (plain : response.Plain) : ¬ crlf <:+: response.statusLine := by
  intro occurs
  refine plain.message (infix_of_append_foreign ?_ occurs)
  intro member
  rcases List.mem_append.mp (mem_of_mem_formatted member) with early | last
  · rcases List.mem_append.mp early with front | digit
    · exact absurd front (by decide)
    · exact absurd (decimal_range digit).1 (by decide)
  · exact absurd last (by decide)

private theorem lengthLine_clear (length : Nat) : ¬ crlf <:+: lengthLine length := by
  intro occurs
  have member : (13 : Byte) ∈ lengthLine length := occurs.subset (by decide)
  rcases List.mem_append.mp member with front | digit
  · exact absurd front (by decide)
  · exact absurd (decimal_digit digit).1 (by decide)

private theorem headerLine_clear {key value : Bytes} (keyClear : ¬ crlf <:+: key)
    (valueClear : ¬ crlf <:+: value) : ¬ crlf <:+: headerLine (key, value) := by
  have behind : ¬ crlf <:+: [] ++ (32 :: value) :=
    not_infix_append_cons (by decide) (by decide) valueClear
  have whole : ¬ crlf <:+: key ++ 58 :: (32 :: value) :=
    not_infix_append_cons (by decide) keyClear behind
  exact whole

/-- A line of the head is the status line, one of the connection lines or a header. -/
theorem mem_headLines : line ∈ response.headLines ↔
    line = response.statusLine ∨ line ∈ response.connectionLines ∨
      ∃ key value, response.headers.lookup key = some value ∧
        line = headerLine (key, value) := by
  rw [headLines, List.mem_cons, List.mem_append, List.mem_map]
  constructor
  · rintro (status | connection | ⟨⟨key, value⟩, member, same⟩)
    · exact .inl status
    · exact .inr (.inl connection)
    · exact .inr (.inr ⟨key, value, mem_sortedHeaders.mp member, same.symm⟩)
  · rintro (status | connection | ⟨key, value, found, same⟩)
    · exact .inl status
    · exact .inr (.inl connection)
    · exact .inr (.inr ⟨(key, value), mem_sortedHeaders.mpr found, same.symm⟩)

private theorem headLines_proper (plain : response.Plain) :
    ∀ line ∈ response.headLines, line ≠ [] ∧ ¬ crlf <:+: line := by
  intro line member
  rcases mem_headLines.mp member with status | connection | ⟨key, value, found, same⟩
  · rw [status]
    obtain ⟨rest, starts⟩ := response.statusLine_starts
    refine ⟨?_, statusLine_clear plain⟩
    rw [starts]
    exact List.cons_ne_nil _ _
  · unfold connectionLines at connection
    split at connection
    · rw [List.mem_singleton.mp connection]
      exact ⟨by decide, by decide⟩
    · rcases List.mem_cons.mp connection with length | keep
      · rw [length]
        refine ⟨?_, lengthLine_clear _⟩
        exact List.append_ne_nil_of_left_ne_nil (by decide) _
      · rw [List.mem_singleton.mp keep]
        exact ⟨by decide, by decide⟩
  · rw [same]
    obtain ⟨keyClear, valueClear⟩ := plain.headers key value found
    refine ⟨?_, headerLine_clear keyClear valueClear⟩
    exact List.append_ne_nil_of_right_ne_nil _ (List.append_ne_nil_of_left_ne_nil (by decide) _)

/-- What the client reads of a plain response: its lines, and its body behind them. -/
theorem Plain.headed (plain : response.Plain) :
    Headed crlf response.wire response.headLines response.body := by
  have text : ascii "\r\n" = crlf := by decide
  have headers : response.sortedHeaders.flatMap headerText =
      (response.sortedHeaders.map headerLine).flatMap fun line => line ++ crlf := by
    rw [List.flatMap_map]
    apply List.flatMap_congr
    intro header _
    simp only [headerText, headerLine, text, List.append_assoc]
  have connection : response.connectionText =
      response.connectionLines.flatMap fun line => line ++ crlf := by
    unfold connectionText connectionLines
    split
    · decide
    · rw [lengthLine_formatted plain.body]
      have keep : ascii "Connection: Keep-Alive\r\n" = keepAliveLine ++ crlf := by decide
      rw [keep]
      simp only [List.flatMap_cons, List.flatMap_nil, List.append_nil]
  have wire : response.wire =
      response.headLines.flatMap (fun line => line ++ crlf) ++ (crlf ++ response.body) := by
    unfold wire
    rw [headers, connection, text, headLines, List.flatMap_cons, List.flatMap_append, statusLine]
    simp only [List.append_assoc]
  rw [wire]
  exact .of_lines (headLines_proper plain) response.body

/-- A header line that reads as a text with one `": "`, behind ten cells, has these cells
for its key and what follows for its value. -/
private theorem headerLine_parts {key value : Bytes}
    (single : ∀ cut < line.length, ascii ": " <+: line.drop cut → cut = 10)
    (same : headerLine (key, value) = line) : key = line.take 10 ∧ value = line.drop 12 := by
  have length : line.length = key.length + (2 + value.length) := by
    rw [← same, headerLine, List.length_append, List.length_append]
    rfl
  have behind : line.drop key.length = ascii ": " ++ value := by
    rw [← same, headerLine, List.drop_left]
  have ten : key.length = 10 := single key.length (by omega) ⟨value, behind.symm⟩
  constructor
  · rw [← ten, ← same, headerLine, List.take_left]
  · have cut : 12 = key.length + 2 := by rw [ten]
    rw [cut, ← List.drop_drop, behind]
    rfl

private theorem statusLine_ne (response : HttpResponse) {tail : Bytes} :
    67 :: tail ≠ response.statusLine := by
  obtain ⟨rest, starts⟩ := response.statusLine_starts
  rw [starts]
  intro same
  exact absurd (List.cons.inj same).1 (by decide)

private theorem take_lengthLine (length : Nat) :
    (lengthLine length).take 4 = [67, 111, 110, 116] := rfl

/-- A line that starts with the key `Connection` is one of the encoder, or stands for a header of
that key. -/
private theorem connectionLine_mem {tail value : Bytes}
    (single : ∀ cut < (67 :: tail).length, ascii ": " <+: (67 :: tail).drop cut → cut = 10)
    (shape : 67 :: tail = headerLine (ascii "Connection", value)) :
    67 :: tail ∈ response.headLines ↔ 67 :: tail ∈ response.connectionLines ∨
      response.headers.lookup (ascii "Connection") = some value := by
  rw [mem_headLines]
  constructor
  · rintro (status | connection | ⟨key, other, found, same⟩)
    · exact absurd status response.statusLine_ne
    · exact .inl connection
    · obtain ⟨keyEq, otherEq⟩ := headerLine_parts single same.symm
      obtain ⟨own, valueEq⟩ := headerLine_parts single shape.symm
      rw [keyEq, ← own, otherEq, ← valueEq] at found
      exact .inr found
  · rintro (connection | found)
    · exact .inr (.inl connection)
    · exact .inr (.inr ⟨_, _, found, shape⟩)

theorem closeLine_mem : closeLine ∈ response.headLines ↔
    response.keepConnected ≠ 0 ∨
      response.headers.lookup (ascii "Connection") = some close := by
  have own : closeLine ∈ response.connectionLines ↔ response.keepConnected ≠ 0 := by
    unfold connectionLines
    split
    case isTrue closes => exact iff_of_true (List.mem_singleton_self _) closes
    case isFalse keeps =>
      refine iff_of_false ?_ keeps
      intro member
      rcases List.mem_cons.mp member with length | keep
      · have parts := congrArg (List.take 4) length
        rw [take_lengthLine] at parts
        exact absurd parts (by decide)
      · exact absurd (List.mem_singleton.mp keep) (by decide)
  rw [← own]
  exact connectionLine_mem (by decide) (by decide)

theorem keepAliveLine_mem : keepAliveLine ∈ response.headLines ↔
    response.keepConnected = 0 ∨
      response.headers.lookup (ascii "Connection") = some keepAlive := by
  have own : keepAliveLine ∈ response.connectionLines ↔ response.keepConnected = 0 := by
    unfold connectionLines
    split
    case isTrue closes =>
      refine iff_of_false ?_ closes
      intro member
      exact absurd (List.mem_singleton.mp member) (by decide)
    case isFalse keeps =>
      exact iff_of_true (List.mem_cons_of_mem _ (List.mem_singleton_self _))
        (Decidable.not_not.mp keeps)
  rw [← own]
  exact connectionLine_mem (by decide) (by decide)

/-- A plain response is delimited exactly when its framing agrees with the shutdown. -/
theorem Plain.delimited_iff (plain : response.Plain) :
    Reply.Delimited ⟨response.wire, closed⟩ ↔ response.Frames closed := by
  have head := plain.headed
  have only : ∀ {lines body}, Headed crlf response.wire lines body →
      lines = response.headLines := fun other => (other.unique crlf_borderless head).1
  constructor
  · intro delimited
    have closing := delimited.closing _ _ head
    have lasting := delimited.lasting _ _ head
    rw [closeLine_mem] at closing
    rw [keepAliveLine_mem] at lasting
    by_cases closes : response.keepConnected ≠ 0
    · have shut : closed = true := closing (.inl closes)
      constructor
      · rw [shut]
        exact (decide_eq_true closes).symm
      · rw [if_pos closes]
        intro found
        exact absurd (shut.symm.trans (lasting (.inr found))) (by decide)
    · have stays : closed = false := lasting (.inl (Decidable.not_not.mp closes))
      constructor
      · rw [stays]
        exact (decide_eq_false closes).symm
      · rw [if_neg closes]
        intro found
        exact absurd (stays.symm.trans (closing (.inr found))) (by decide)
  · intro frames
    by_cases closes : response.keepConnected ≠ 0
    · have shut : closed = true := frames.flag.trans (decide_eq_true closes)
      have header := frames.header
      rw [if_pos closes] at header
      refine ⟨.inl shut, fun _ _ _ _ => shut, ?_⟩
      intro lines body other member
      rw [only other, keepAliveLine_mem] at member
      rcases member with keeps | found
      · exact absurd keeps closes
      · exact absurd found header
    · have stays : closed = false := frames.flag.trans (decide_eq_false closes)
      have header := frames.header
      rw [if_neg closes] at header
      refine ⟨.inr ⟨_, _, head, ?_⟩, ?_, fun _ _ _ _ => stays⟩
      · rw [mem_headLines, connectionLines, if_neg closes]
        exact .inr (.inl (List.mem_cons_self ..))
      · intro lines body other member
        rw [only other, closeLine_mem] at member
        rcases member with breaks | found
        · exact absurd breaks closes
        · exact absurd found header

end HttpResponse

section Replies

variable {connection after : TcpConnection} {turn : Turn} {fuel : Nat}

theorem shutsDown_append {first second : List Action} (none : shutsDown second = false) :
    shutsDown (first ++ second) = shutsDown first := by
  induction first with
  | nil => exact none
  | cons action first ih =>
    cases action with
    | shutdown queued => rfl
    | send data refused => rfl
    | _ => exact ih

/-- Calls that do not start with a shutdown leave the earlier replies alone. -/
theorem replies_append {first second : List Action} (none : shutsDown second = false) :
    replies (first ++ second) = replies first ++ replies second := by
  induction first with
  | nil => rfl
  | cons action first ih =>
    cases action with
    | send data refused =>
      change (⟨data, shutsDown (first ++ second)⟩ : Reply) :: replies (first ++ second) = _
      rw [shutsDown_append none, ih]
      rfl
    | _ => exact ih

/-- Calls without data are no replies. -/
theorem replies_of_sends {actions : List Action} (silent : sends actions = []) :
    replies actions = [] := by
  induction actions with
  | nil => rfl
  | cons action actions ih =>
    cases action with
    | send data refused => cases silent
    | _ => exact ih silent

/-- Calls that neither send nor end the output are passed over. -/
theorem shutsDown_quiet {actions after : List Action} (silent : sends actions = [])
    (stays : ∀ action ∈ actions, action.endsOutput = false) :
    shutsDown (actions ++ after) = shutsDown after := by
  induction actions with
  | nil => rfl
  | cons action actions ih =>
    have later : ∀ other ∈ actions, other.endsOutput = false :=
      fun other member => stays other (List.mem_cons_of_mem _ member)
    cases action with
    | shutdown queued => exact absurd (stays _ (List.mem_cons_self ..)) nofun
    | send data refused => cases silent
    | _ => exact ih silent later

/-- The calls of one `send_data` are one reply, and what follows tells whether it is the
last. -/
theorem TcpConnection.Sending.replies {actions after : List Action} {data : Bytes}
    (sending : Sending actions data) (last : App.sends after = []) :
    App.replies (actions ++ after) = [⟨data, shutsDown after⟩] ∧
      shutsDown (actions ++ after) = false := by
  obtain ⟨sent, -, stays⟩ := sending
  induction actions with
  | nil => cases sent
  | cons action actions ih =>
    have later : ∀ other ∈ actions, other.endsOutput = false :=
      fun other member => stays other (List.mem_cons_of_mem _ member)
    cases action with
    | send other refused =>
      obtain ⟨same, silent⟩ := List.cons.inj sent
      subst same
      refine ⟨?_, rfl⟩
      change (⟨other, shutsDown (actions ++ after)⟩ : Reply) :: App.replies (actions ++ after) = _
      rw [shutsDown_quiet silent later, replies_of_sends]
      rw [sends_append, last, List.append_nil]
      exact silent
    | shutdown queued => exact absurd (stays _ (List.mem_cons_self ..)) nofun
    | _ => exact ih sent later

/-- Handling a request makes one more reply. -/
theorem Handled.replies {request : HttpRequest} {parsed : Parsing} {sent : TcpConnection}
    {closes : Bool} (handled : Handled connection turn request parsed sent closes after) :
    App.replies after.trace = App.replies connection.trace ++
      [⟨(turn.respond parsed.request).2.wire, closes⟩] := by
  obtain ⟨actions, trace, _, sending, _⟩ := handled.trace
  have calls := calls_requests turn parsed.request
  have quiet := closing_quiet closes sent.outputBuffer.contents
  obtain ⟨one, unshut⟩ := sending.replies quiet.2.1
  have last : shutsDown (if closes then [Action.shutdown sent.outputBuffer.contents] else []) =
      closes := by
    cases closes with
    | true => rfl
    | false => rfl
  rw [last] at one
  have behind : shutsDown (turn.calls parsed.request ++ (actions ++
      if closes then [Action.shutdown sent.outputBuffer.contents] else [])) = false := by
    rw [shutsDown_quiet calls.1 fun action member => (calls.2 action member).1]
    exact unshut
  rw [trace, List.append_assoc, List.append_assoc, replies_append behind, replies_append unshut,
    replies_of_sends calls.1, one]
  rfl

end Replies

/-- Every response that is built is plain. -/
def PlainEvent (connection : TcpConnection) : HttpEvent → Prop
  | .read received turn => connection.watched = true → ∀ parsed,
    Delivers connection received parsed → (turn.respond parsed.request).2.Plain
  | .writable _ => True

/-- Every response is framed as `close_connection` decides. -/
def FramedEvent (connection : TcpConnection) : HttpEvent → Prop
  | .read received turn => connection.watched = true → ∀ parsed closes,
    Delivers connection received parsed →
    (turn.respond parsed.request).1.closeConnection = .ok closes →
    (turn.respond parsed.request).2.Frames closes
  | .writable _ => True

/-- A read event leads the parser to one result only. -/
theorem Delivers.unique {connection : TcpConnection} {received : Option Bytes}
    {parsed other : Parsing} (delivers : Delivers connection received parsed)
    (again : Delivers connection received other) : parsed = other := by
  obtain ⟨bytes, input, request, same, _, read, pending, returns⟩ := delivers
  obtain ⟨bytes', input', request', same', _, read', pending', returns'⟩ := again
  cases same.symm.trans same'
  cases read.symm.trans read'
  cases pending.symm.trans pending'
  exact returns.unique returns'

theorem not_delivers_of_gone {connection : TcpConnection} {received : Option Bytes}
    (gone : received = none ∨ received = some []) (parsed : Parsing) :
    ¬ Delivers connection received parsed := by
  rintro ⟨bytes, input, request, same, some, _⟩
  rcases gone with none | empty
  · cases none.symm.trans same
  · exact some (Option.some.inj (same.symm.trans empty))

/-- One event adds replies. Plain ones are delimited exactly when they are framed as
`close_connection` decides. -/
theorem delimited_step {connection next : TcpConnection} {event : HttpEvent} {fuel : Nat}
    (valid : connection.outputBuffer.Valid)
    (taken : httpStep fuel connection event = .ok next) :
    ∃ more, replies next.trace = replies connection.trace ++ more ∧
      (PlainEvent connection event →
        ((∀ reply ∈ more, reply.Delimited) ↔ FramedEvent connection event)) := by
  cases watched : connection.watched with
  | false =>
    rw [httpStep_unwatched watched] at taken
    cases taken
    refine ⟨[], (List.append_nil _).symm, fun _ => ?_⟩
    cases event with
    | read received turn => simp [FramedEvent, watched]
    | writable result => simp [FramedEvent]
  | true =>
    cases event with
    | writable result =>
      refine ⟨[], ?_, fun _ => by simp [FramedEvent]⟩
      rcases httpStep_writable_cases watched valid taken with same | ⟨some, rest, _, parts, same⟩
      · rw [same]
        exact replies_append rfl
      · obtain ⟨updates, trace, shape⟩ :=
          (connection.record [.write some]).consumeWritten_trace some.length
        rw [same, trace, record, List.append_assoc]
        rcases shape with none | one
        · rw [none]
          exact replies_append rfl
        · rw [one]
          exact replies_append rfl
    | read received turn =>
      rcases httpStep_read watched taken with
        ⟨gone, same⟩ | ⟨input, request, parsed, sent, closes, delivers, handled⟩
      · refine ⟨[], ?_, ?_⟩
        · rw [same, closedConnection, replies_append rfl]
          rfl
        · have framed : FramedEvent connection (.read received turn) :=
            fun _ other _ delivers => absurd delivers (not_delivers_of_gone gone other)
          intro _
          refine ⟨fun _ => framed, ?_⟩
          intro _ reply member
          cases member
      · refine ⟨_, handled.replies, fun plain => ?_⟩
        rw [List.forall_mem_singleton, (plain watched parsed delivers).delimited_iff]
        constructor
        · intro frames _ other decided again decides
          cases delivers.unique again
          cases handled.decides.symm.trans decides
          exact frames
        · intro framed
          exact framed watched parsed closes delivers handled.decides

/-- In a run whose responses are plain, every reply is delimited and announces what happens
exactly when every response is framed as `close_connection` decides. -/
theorem replies_delimited_iff {self eventLoop fuel : Nat} {connectedFd : Int}
    {events : List HttpEvent} {final : TcpConnection}
    (plain : Along (httpStep fuel) PlainEvent (.established self eventLoop connectedFd) events)
    (success : run (httpStep fuel) (.established self eventLoop connectedFd) events = .ok final) :
    (∀ reply ∈ replies final.trace, reply.Delimited) ↔
      Along (httpStep fuel) FramedEvent (.established self eventLoop connectedFd) events := by
  apply run_along_iff_of (fun connection : TcpConnection => connection.outputBuffer.Valid)
    (fun connection : TcpConnection => ∀ reply ∈ replies connection.trace, reply.Delimited)
    _ _ _ _ _ plain success
  · intro state event next valid taken
    exact (httpStep_extends valid taken).2
  · intro state event next valid taken delimited reply member
    obtain ⟨more, same, _⟩ := delimited_step valid taken
    apply delimited reply
    rw [same]
    exact List.mem_append_left _ member
  · intro state event next valid delimited plain taken
    obtain ⟨more, same, framed⟩ := delimited_step valid taken
    rw [same, ← framed plain]
    constructor
    · intro all reply member
      exact all reply (List.mem_append_right _ member)
    · intro new reply member
      rcases List.mem_append.mp member with early | late
      · exact delimited reply early
      · exact new reply late
  · exact Buffer.new_valid
  · nofun

theorem HttpResponse.new_plain : HttpResponse.new.Plain :=
  ⟨by decide, fun _ _ found => (by cases found), by decide⟩

/-- A request that keeps the connection, answered by a server without a callback. -/
theorem replies_delimited_sample :
    ∃ fuel final, run (httpStep fuel) (.established 0 0 9)
        [.read (some RequestText.sample.render) (.answering (.wrote 58))] = .ok final ∧
      ((∀ reply ∈ replies final.trace, reply.Delimited) ↔
        Along (httpStep fuel) FramedEvent (.established 0 0 9)
          [.read (some RequestText.sample.render) (.answering (.wrote 58))]) := by
  have arrival : Arrival (.established 0 0 9) RequestText.sample.render .sample [] := by
    refine ⟨by decide, le_capacity _ (by decide), ?_, RequestText.sample_wellFormed,
      RequestText.sample_short⟩
    change Buffer.new.contents ++ _ = _
    rw [Buffer.new_contents, List.nil_append, List.append_nil]
  obtain ⟨fuel, final, step, _⟩ := arrival.returns (established_ready 0 0 9)
    (unsent_storable _ (small_wire (.wrote 58) _) _) (sample_keeps (.wrote 58))
  have success := (run_cons step []).trans rfl
  refine ⟨fuel, final, success, replies_delimited_iff ?_ success⟩
  exact ⟨fun _ _ _ => HttpResponse.new_plain, fun _ _ => trivial⟩

/-- `onRequest` of the sample server. -/
def onRequest (request : HttpRequest) (response : HttpResponse) : HttpRequest × HttpResponse :=
  let path := request.url.takeWhile (· ≠ 63)
  if path = ascii "/" then
    (request, { response with
      statusCode := 200
      statusMessage := ascii "OK"
      body := ascii "<html><head><title>This is network programming</title></head><body><h1>Hello, network programming</h1></body></html>" })
  else if cString path = ascii "/network" then
    (request, { response with
      statusCode := 200
      statusMessage := ascii "OK"
      body := ascii "hello, network programming" })
  else
    (request, { response with
      statusCode := 404
      statusMessage := ascii "Not Found"
      keepConnected := 1 })

/-- A request for a page that the sample server does not have. -/
def RequestText.missing : RequestText :=
  { method := ascii "GET", url := ascii "/missing", version := ascii "HTTP/1.1", headers := [] }

/-- The sample server, on a socket that takes `count` bytes. -/
def Turn.sampleServer (count : Nat) : Turn :=
  { requestCallback := some onRequest, errorWrite := .wrote 0, responseWrite := .wrote count }

/-- The response for a missing page announces that the connection is closed, has no
`Content-Length`, and is not followed by a shutdown. -/
theorem missing_page_not_delimited : ∃ fuel final,
    run (httpStep fuel) (.established 0 0 9)
        [.read (some RequestText.missing.render) (.sampleServer 100)] = .ok final ∧
      ¬ ∀ reply ∈ replies final.trace, reply.Delimited := by
  have wellFormed : RequestText.missing.WellFormed :=
    ⟨by decide, by decide, by decide, by decide, by decide, by decide⟩
  have arrival : Arrival (.established 0 0 9) RequestText.missing.render .missing [] := by
    refine ⟨by decide, le_capacity _ (by decide), ?_, wellFormed, by decide, by decide⟩
    change Buffer.new.contents ++ _ = _
    rw [Buffer.new_contents, List.nil_append, List.append_nil]
  have keeps : ((Turn.sampleServer 100).respond RequestText.missing.parsed).1.closeConnection =
      .ok false := by decide
  have short : ((Turn.sampleServer 100).respond RequestText.missing.parsed).2.wire.length <
      2 ^ 31 := by decide
  obtain ⟨fuel, final, step, served⟩ := arrival.returns (established_ready 0 0 9)
    (unsent_storable _ short _) keeps
  refine ⟨fuel, final, (run_cons step []).trans rfl, ?_⟩
  intro delimited
  obtain ⟨input, parsed, sent, closes, handled, same⟩ := served.handled
  have decided := handled.decides
  rw [same, keeps] at decided
  cases decided
  have plain : ((Turn.sampleServer 100).respond RequestText.missing.parsed).2.Plain :=
    ⟨by decide, fun _ _ found => (by cases found), by decide⟩
  have last := delimited ⟨((Turn.sampleServer 100).respond parsed.request).2.wire, false⟩ (by
    rw [handled.replies]
    exact List.mem_append_right _ (List.mem_singleton_self _))
  rw [same, plain.delimited_iff] at last
  exact absurd last.flag (by decide)

end Yolanda.App
