import Mathlib.Data.List.Sort
import Yolanda.App.BufferInvariant
import Yolanda.App.HttpRequest

namespace Yolanda.App

/-- `struct http_response`. The status code `Unknown` is 0. -/
structure HttpResponse where
  statusCode : Int
  statusMessage : Bytes
  body : Bytes
  headers : Headers
  keepConnected : Int

/-- A response as its constructor leaves it. -/
def HttpResponse.new : HttpResponse :=
  { statusCode := 0, statusMessage := [], body := [], headers := ∅, keepConnected := 0 }

/-- The digits of `%d` and `%lu`. -/
def decimal : Int → Bytes
  | .ofNat number => (Nat.toDigits 10 number).map fun digit => UInt8.ofNat digit.toNat
  | .negSucc number => 45 :: (Nat.toDigits 10 (number + 1)).map fun digit => UInt8.ofNat digit.toNat

/-- `snprintf` keeps what fits in front of the terminator. -/
def snprintf (size : Nat) (text : Bytes) : Bytes := text.take (size - 1) ++ [0]

/-- `append(buf, strlen(buf))` for a `buf` of 256 cells. -/
def Buffer.appendFormatted (buffer : Buffer) (text : Bytes) : Except Fault Buffer :=
  let buf := snprintf 256 text
  buffer.append (some buf) (intOfSize (cString buf).length)

namespace HttpResponse

/-- The headers in the order in which a `std::map` is traversed. -/
def sortedHeaders (response : HttpResponse) : List (Bytes × Bytes) :=
  (response.headers.entries.map fun entry => (entry.1, entry.2)).insertionSort fun left right =>
    left.1 ≤ right.1

def appendHeaders (output : Buffer) : List (Bytes × Bytes) → Except Fault Buffer
  | [] => .ok output
  | (key, value) :: headers => do
    let output ← output.appendString key
    let output ← output.appendString (ascii ": ")
    let output ← output.appendString value
    let output ← output.appendString (ascii "\r\n")
    appendHeaders output headers

/-- The lines that tell whether the connection stays open. -/
def appendConnection (response : HttpResponse) (output : Buffer) : Except Fault Buffer :=
  if response.keepConnected ≠ 0 then output.appendString (ascii "Connection: close\r\n")
  else do
    let output ← output.appendFormatted
      (ascii "Content-Length: " ++ decimal response.body.length ++ ascii "\r\n")
    output.appendString (ascii "Connection: Keep-Alive\r\n")

/-- `encode_buffer` -/
def encodeBuffer (response : HttpResponse) (output : Buffer) : Except Fault Buffer := do
  let output ← output.appendFormatted (ascii "HTTP/1.1 " ++ decimal response.statusCode ++ ascii " ")
  let output ← output.appendString response.statusMessage
  let output ← output.appendString (ascii "\r\n")
  let output ← response.appendConnection output
  let output ← appendHeaders output response.sortedHeaders
  let output ← output.appendString (ascii "\r\n")
  output.appendString response.body

/-- What a formatted line reads as. -/
def formatted (text : Bytes) : Bytes := cString (snprintf 256 text)

def headerText (header : Bytes × Bytes) : Bytes :=
  header.1 ++ (ascii ": " ++ (header.2 ++ ascii "\r\n"))

def connectionText (response : HttpResponse) : Bytes :=
  if response.keepConnected ≠ 0 then ascii "Connection: close\r\n"
  else formatted (ascii "Content-Length: " ++ decimal response.body.length ++ ascii "\r\n") ++
    ascii "Connection: Keep-Alive\r\n"

/-- The bytes of an encoded response. -/
def wire (response : HttpResponse) : Bytes :=
  formatted (ascii "HTTP/1.1 " ++ decimal response.statusCode ++ ascii " ") ++
    (response.statusMessage ++ (ascii "\r\n" ++ (response.connectionText ++
      (response.sortedHeaders.flatMap headerText ++ (ascii "\r\n" ++ response.body)))))

end HttpResponse

/-- The call returns a valid buffer that holds the given bytes behind the earlier ones. -/
def Appends (buffer : Buffer) (result : Except Fault Buffer) (bytes : Bytes) : Prop :=
  ∃ filled, result = .ok filled ∧ filled.Valid ∧ filled.contents = buffer.contents ++ bytes

/-- Appending in sequence appends the concatenation. -/
theorem Appends.bind {buffer : Buffer} {first : Except Fault Buffer}
    {next : Buffer → Except Fault Buffer} {bytes more : Bytes} (appends : Appends buffer first bytes)
    (others : ∀ filled : Buffer, filled.Valid → Appends filled (next filled) more) :
    Appends buffer (first >>= next) (bytes ++ more) := by
  obtain ⟨filled, success, valid, contents⟩ := appends
  obtain ⟨final, rest, finalValid, finalContents⟩ := others filled valid
  refine ⟨final, ?_, finalValid, ?_⟩
  · rw [success, ok_bind]
    exact rest
  · rw [finalContents, contents, List.append_assoc]

theorem Buffer.Valid.appendFormatted {buffer : Buffer} (valid : buffer.Valid) (text : Bytes) :
    Appends buffer (buffer.appendFormatted text) (HttpResponse.formatted text) := by
  have start : cString (snprintf 256 text) <+: snprintf 256 text := List.takeWhile_prefix _
  have bounded : (snprintf 256 text).length ≤ 256 := by
    simp only [snprintf, List.length_append, List.length_take, List.length_singleton]
    omega
  have small : (cString (snprintf 256 text)).length < 2 ^ 31 :=
    Nat.lt_of_le_of_lt (Nat.le_trans start.length_le bounded) (by decide)
  have part := valid.appendPart (snprintf 256 text) start.length_le small
  rwa [← List.prefix_iff_eq_take.mp start] at part

namespace HttpResponse

private theorem appendHeaders_appends (headers : List (Bytes × Bytes)) {output : Buffer}
    (valid : output.Valid) :
    Appends output (appendHeaders output headers) (headers.flatMap headerText) := by
  induction headers generalizing output with
  | nil => exact ⟨output, rfl, valid, (List.append_nil _).symm⟩
  | cons header headers ih =>
    have shape : (header :: headers).flatMap headerText = header.1 ++ (ascii ": " ++
        (header.2 ++ (ascii "\r\n" ++ headers.flatMap headerText))) := by
      simp only [List.flatMap_cons, headerText, List.append_assoc]
    rw [shape]
    apply Appends.bind (valid.appendString header.1)
    intro output valid
    apply Appends.bind (valid.appendString _)
    intro output valid
    apply Appends.bind (valid.appendString header.2)
    intro output valid
    apply Appends.bind (valid.appendString _)
    intro output valid
    exact ih valid

private theorem appendConnection_appends (response : HttpResponse) {output : Buffer}
    (valid : output.Valid) :
    Appends output (response.appendConnection output) response.connectionText := by
  unfold appendConnection connectionText
  by_cases closes : response.keepConnected ≠ 0
  · rw [if_pos closes, if_pos closes]
    exact valid.appendString _
  · rw [if_neg closes, if_neg closes]
    apply Appends.bind (valid.appendFormatted _)
    intro output valid
    exact valid.appendString _

/-- Encoding never fails and appends the bytes of the response. -/
theorem encodeBuffer_appends (response : HttpResponse) {output : Buffer} (valid : output.Valid) :
    Appends output (response.encodeBuffer output) response.wire := by
  apply Appends.bind (valid.appendFormatted _)
  intro output valid
  apply Appends.bind (valid.appendString _)
  intro output valid
  apply Appends.bind (valid.appendString _)
  intro output valid
  apply Appends.bind (response.appendConnection_appends valid)
  intro output valid
  apply Appends.bind (appendHeaders_appends _ valid)
  intro output valid
  apply Appends.bind (valid.appendString _)
  intro output valid
  exact valid.appendString _

end HttpResponse

end Yolanda.App
