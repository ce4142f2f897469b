import Yolanda.App.HttpResponse
import Yolanda.Lib.HttpRequest

/-! The responses of the C library, and what becomes of the pieces that are appended one after
the other when they are encoded. -/

namespace Yolanda.Lib

open Foundation
open App (ascii decimal snprintf cString)

/-- `struct response_header` -/
structure ResponseHeader where
  key : Option Pointer
  value : Option Pointer

/-- `struct http_response`, with the headers that `response_headers_number` counts. -/
structure HttpResponse where
  statusCode : Int
  statusMessage : Option Pointer
  body : Option Pointer
  responseHeaders : Option (List ResponseHeader)
  keepConnected : Int

/-- `http_response_new` -/
def HttpResponse.new : HttpResponse :=
  { statusCode := 0
    statusMessage := none
    body := none
    responseHeaders := some []
    keepConnected := 0 }

namespace Buffer

/-- `snprintf` into a `buf` of 32 cells, and `buffer_append_string` of it. -/
def appendFormatted (buffer : Buffer) (text : Bytes) (memory : Bool) : Except Stop Buffer :=
  buffer.appendString (some ⟨snprintf 32 text, 0⟩) memory

/-- `buffer_append_string` of a literal. -/
def appendLiteral (buffer : Buffer) (literal : String) (memory : Bool) : Except Stop Buffer :=
  buffer.appendString (some (.ofText (ascii literal))) memory

/-- One string after the other. -/
def appendStrings (buffer : Buffer) (memory : Bool) : List (Option Pointer) → Except Stop Buffer
  | [] => .ok buffer
  | source :: sources => do
    let buffer ← buffer.appendString source memory
    buffer.appendStrings memory sources

end Buffer

namespace HttpResponse

/-- The loop of `http_response_encode_buffer` over the headers. -/
def appendHeaders (memory : Bool) (output : Buffer) : List ResponseHeader → Except Stop Buffer
  | [] => .ok output
  | header :: headers => do
    let output ← output.appendString header.key memory
    let output ← output.appendLiteral ": " memory
    let output ← output.appendString header.value memory
    let output ← output.appendLiteral "\r\n" memory
    appendHeaders memory output headers

/-- The lines that tell whether the connection stays open. `strlen` is called on the body, set
or not. -/
def appendConnection (response : HttpResponse) (memory : Bool) (output : Buffer) :
    Except Stop Buffer :=
  if response.keepConnected ≠ 0 then output.appendLiteral "Connection: close\r\n" memory
  else
    match response.body with
    | none => .error .memory
    | some body => do
      let size ← body.strlen
      let output ← output.appendFormatted
        (ascii "Content-Length: " ++ decimal size ++ ascii "\r\n") memory
      output.appendLiteral "Connection: Keep-Alive\r\n" memory

/-- `http_response_encode_buffer` -/
def encodeBuffer (response : HttpResponse) (memory : Bool) (output : Buffer) :
    Except Stop Buffer := do
  let output ← output.appendFormatted
    (ascii "HTTP/1.1 " ++ decimal response.statusCode ++ ascii " ") memory
  let output ← output.appendString response.statusMessage memory
  let output ← output.appendLiteral "\r\n" memory
  let output ← response.appendConnection memory output
  let output ← appendHeaders memory output (response.responseHeaders.getD [])
  let output ← output.appendLiteral "\r\n" memory
  output.appendString response.body memory

/-- What is appended for a header. -/
def headerStrings (header : ResponseHeader) : List (Option Pointer) :=
  [header.key, some (.ofText (ascii ": ")), header.value, some (.ofText (ascii "\r\n"))]

/-- What is appended for the connection, if the length of the body is asked for where there is
one. -/
def connectionStrings (response : HttpResponse) (size : Nat) : List (Option Pointer) :=
  if response.keepConnected ≠ 0 then [some (.ofText (ascii "Connection: close\r\n"))]
  else [some ⟨snprintf 32 (ascii "Content-Length: " ++ decimal size ++ ascii "\r\n"), 0⟩,
    some (.ofText (ascii "Connection: Keep-Alive\r\n"))]

/-- What is appended for a response with a body of this size. -/
def strings (response : HttpResponse) (size : Nat) : List (Option Pointer) :=
  some ⟨snprintf 32 (ascii "HTTP/1.1 " ++ decimal response.statusCode ++ ascii " "), 0⟩ ::
    response.statusMessage :: some (.ofText (ascii "\r\n")) ::
      (response.connectionStrings size ++
        ((response.responseHeaders.getD []).flatMap headerStrings ++
          [some (.ofText (ascii "\r\n")), response.body]))

theorem appendStrings_append (memory : Bool) (first second : List (Option Pointer))
    (output : Buffer) : output.appendStrings memory (first ++ second) = (do
      let middle ← output.appendStrings memory first
      middle.appendStrings memory second) := by
  induction first generalizing output with
  | nil => rfl
  | cons source sources ih =>
    rw [List.cons_append, Buffer.appendStrings, Buffer.appendStrings]
    cases output.appendString source memory with
    | error stop => rfl
    | ok next => exact ih next

private theorem appendHeaders_strings (memory : Bool) (headers : List ResponseHeader)
    (output : Buffer) : appendHeaders memory output headers =
      output.appendStrings memory (headers.flatMap headerStrings) := by
  induction headers generalizing output with
  | nil => rfl
  | cons header headers ih =>
    rw [List.flatMap_cons, appendStrings_append]
    simp only [appendHeaders, headerStrings, Buffer.appendStrings, Buffer.appendLiteral, bind_assoc,
      ok_bind, ih]

variable {response : HttpResponse} {memory : Bool} {size : Nat}

private theorem returned (result : Except Stop Buffer) : (result >>= fun buffer => .ok buffer) = result :=
  bind_pure result

private theorem appendConnection_strings
    (measured : response.keepConnected = 0 →
      ∃ body, response.body = some body ∧ body.strlen = .ok size) (output : Buffer) :
    response.appendConnection memory output =
      output.appendStrings memory (response.connectionStrings size) := by
  unfold appendConnection connectionStrings
  by_cases closes : response.keepConnected ≠ 0
  · rw [if_pos closes, if_pos closes]
    simp only [Buffer.appendLiteral, Buffer.appendStrings, returned]
  · obtain ⟨body, set, length⟩ := measured (not_not.mp closes)
    rw [if_neg closes, if_neg closes]
    simp only [set, length, ok_bind, Buffer.appendFormatted, Buffer.appendLiteral,
      Buffer.appendStrings, returned]

/-- The encoder appends its strings, when it can ask for the length of the body. -/
theorem encodeBuffer_strings
    (measured : response.keepConnected = 0 →
      ∃ body, response.body = some body ∧ body.strlen = .ok size) (output : Buffer) :
    response.encodeBuffer memory output = output.appendStrings memory (response.strings size) := by
  simp only [encodeBuffer, strings, Buffer.appendStrings, appendStrings_append,
    appendConnection_strings measured, appendHeaders_strings, Buffer.appendFormatted,
    Buffer.appendLiteral, returned]

/-- The encoder does not return when it asks for the length of a body that is not set. -/
theorem encodeBuffer_unset (keeps : response.keepConnected = 0) (unset : response.body = none)
    (output filled : Buffer) : response.encodeBuffer memory output ≠ .ok filled := by
  intro success
  obtain ⟨first, _, rest⟩ := bind_eq_ok.mp success
  obtain ⟨second, _, rest⟩ := bind_eq_ok.mp rest
  obtain ⟨third, _, rest⟩ := bind_eq_ok.mp rest
  obtain ⟨fourth, connection, _⟩ := bind_eq_ok.mp rest
  simp only [appendConnection, keeps, ne_eq, not_true_eq_false, ↓reduceIte, unset] at connection
  cases connection

end HttpResponse

namespace Buffer

/-- Pieces of these lengths can be appended to a block of `total` bytes that holds `used`: where
it has to grow, by the length of the piece, its size stays an `int`. -/
def Fits (total used : Int) : List Nat → Prop
  | [] => True
  | size :: sizes =>
    if used + size ≤ total then Fits total (used + size) sizes
    else total + size < 2 ^ 31 ∧ Fits (total + size) (used + size) sizes

theorem fits_cons {total used : Int} {size : Nat} {sizes : List Nat} :
    Fits total used (size :: sizes) ↔ (used + size ≤ total ∨ total + size < 2 ^ 31) ∧
      Fits (if used + size ≤ total then total else total + size) (used + size) sizes := by
  rw [Fits]
  split
  case isTrue inside => exact ⟨fun fits => ⟨.inl inside, fits⟩, fun fits => fits.2⟩
  case isFalse outside => exact and_congr_left fun _ => (or_iff_right outside).symm

/-- Pieces fit when the block has room for all of them. -/
theorem Fits.of_room {total used : Int} {sizes : List Nat} (room : used + sizes.sum ≤ total) :
    Fits total used sizes := by
  induction sizes generalizing used with
  | nil => exact trivial
  | cons size sizes ih =>
    rw [List.sum_cons, Nat.cast_add] at room
    rw [Fits, if_pos (by omega)]
    exact ih (by omega)

/-- Pieces fit when the block could grow by all of them. -/
theorem Fits.of_small {total used : Int} {sizes : List Nat} (small : total + sizes.sum < 2 ^ 31) :
    Fits total used sizes := by
  induction sizes generalizing total used with
  | nil => exact trivial
  | cons size sizes ih =>
    rw [List.sum_cons, Nat.cast_add] at small
    rw [Fits]
    split
    case isTrue inside => exact ih (by omega)
    case isFalse outside => exact ⟨by omega, ih (by omega)⟩

/-- The text of a string that may be unset. -/
def textOf (source : Option Pointer) : Bytes :=
  source.elim [] Pointer.string

variable {buffer filled : Buffer} {source : Pointer}

/-- The block grows by what is appended, and only where it has to. -/
theorem Valid.append_exact (valid : buffer.Valid) {size : Int} {bytes : Bytes} (positive : 0 ≤ size)
    (bounded : size < 2 ^ 31) (held : source.read size.toNat = .ok bytes)
    (width : (bytes.length : Int) = size) (room : buffer.contents.length + size ≤ buffer.totalSize ∨
      buffer.totalSize + size < 2 ^ 31) :
    ∃ filled, buffer.append (some source) size true = .ok filled ∧ filled.Valid ∧
      filled.contents = buffer.contents ++ bytes ∧ filled.totalSize =
        if buffer.contents.length + size ≤ buffer.totalSize then buffer.totalSize
        else buffer.totalSize + size := by
  rcases valid.makeRoom positive bounded with ⟨space, made, has⟩ | ⟨_, tight, large⟩
  · obtain ⟨filled, success, kept, same, total⟩ := has.valid.store positive held has.fits
    refine ⟨filled, ?_, kept, by rw [same, has.contents], ?_⟩
    · rw [Buffer.append, made, ok_bind, success]
    · have length := has.valid.length_contents
      have start := has.valid.start
      have fits := has.fits
      rw [has.contents] at length
      rw [total]
      rcases has.grown with equal | ⟨larger, tight⟩
      · rw [if_pos (by omega), equal]
      · rw [if_neg (by omega), larger]
  · omega

/-- An append that returns leaves a valid buffer. -/
theorem Valid.of_append (valid : buffer.Valid) {size : Int} (least : -2 ^ 31 ≤ size)
    (bounded : size < 2 ^ 31) (success : buffer.append (some source) size true = .ok filled) :
    filled.Valid := by
  have positive := (valid.append_length least bounded success).1
  obtain ⟨_, _, appended⟩ := valid.append_returned positive bounded success
  exact appended.valid

/-- Strings that are set are strings. -/
def AllStrings (sources : List (Option Pointer)) : Prop :=
  ∀ source ∈ sources, ∀ pointer, source = some pointer → pointer.IsString

/-- An append of a string that returns stores no more than its text, and less if its length is
no `int`. -/
theorem Valid.of_appendString (valid : buffer.Valid) {source : Option Pointer}
    (isString : ∀ pointer, source = some pointer → pointer.IsString)
    (success : buffer.appendString source true = .ok filled) : filled.Valid ∧
      filled.contents.length ≤ buffer.contents.length + (textOf source).length ∧
      (2 ^ 31 ≤ (textOf source).length →
        filled.contents.length < buffer.contents.length + (textOf source).length) := by
  cases source with
  | none =>
    cases success
    exact ⟨valid, Nat.le_refl _, fun large => absurd large (by simp [textOf])⟩
  | some pointer =>
    have length := Pointer.strlen_eq (isString pointer rfl)
    simp only [Buffer.appendString, length, ok_bind] at success
    obtain ⟨wraps, whole, least, most⟩ := intOfSize_wraps pointer.string.length
    obtain ⟨positive, stored⟩ := valid.append_length least most success
    have text : textOf (some pointer) = pointer.string := rfl
    rw [text]
    exact ⟨valid.of_append least most success, by omega, by omega⟩

/-- Appending strings that returns stores no more than their texts. -/
theorem Valid.of_appendStrings (valid : buffer.Valid) {sources : List (Option Pointer)}
    (strings : AllStrings sources) (success : buffer.appendStrings true sources = .ok filled) :
    filled.Valid ∧ filled.contents.length ≤
      buffer.contents.length + (sources.flatMap textOf).length := by
  induction sources generalizing buffer with
  | nil =>
    cases success
    exact ⟨valid, Nat.le_refl _⟩
  | cons source sources ih =>
    obtain ⟨next, first, rest⟩ := bind_eq_ok.mp success
    obtain ⟨kept, bound, _⟩ :=
      valid.of_appendString (strings source (List.mem_cons_self ..)) first
    obtain ⟨last, total⟩ :=
      ih kept (fun other member => strings other (List.mem_cons_of_mem _ member)) rest
    rw [List.flatMap_cons, List.length_append]
    exact ⟨last, by omega⟩

/-- A string that fits is appended, and the block grows only where it has to. -/
theorem Valid.appendString_fits (valid : buffer.Valid) {source : Option Pointer}
    (isString : ∀ pointer, source = some pointer → pointer.IsString)
    (room : buffer.contents.length + ((textOf source).length : Int) ≤ buffer.totalSize ∨
      buffer.totalSize + (textOf source).length < 2 ^ 31) :
    ∃ filled, buffer.appendString source true = .ok filled ∧ filled.Valid ∧
      filled.contents = buffer.contents ++ textOf source ∧ filled.totalSize =
        if buffer.contents.length + ((textOf source).length : Int) ≤ buffer.totalSize
        then buffer.totalSize else buffer.totalSize + (textOf source).length := by
  cases source with
  | none =>
    refine ⟨buffer, rfl, valid, (List.append_nil _).symm, ?_⟩
    have length := valid.length_contents
    obtain ⟨start, ordered, stored, _, _⟩ := valid
    have empty : ((textOf none).length : Int) = 0 := rfl
    rw [empty, if_pos (by omega)]
  | some pointer =>
    have string := isString pointer rfl
    have text : textOf (some pointer) = pointer.string := rfl
    rw [text] at room ⊢
    have small := valid.small
    have start := valid.start
    have order := valid.ordered
    have stored := valid.stored
    have bounded : (pointer.string.length : Int) < 2 ^ 31 := by omega
    have held : pointer.read (pointer.string.length : Int).toNat = .ok pointer.string := by
      rw [Int.toNat_natCast]
      exact Pointer.read_string string
    have appended := valid.append_exact (Int.natCast_nonneg _) bounded held rfl room
    simpa only [Buffer.appendString, Pointer.strlen_eq string, ok_bind,
      intOfSize_of_lt (show pointer.string.length < 2 ^ 31 by omega)] using appended

/-- Strings that fit are appended. -/
theorem Valid.appendStrings_fits (valid : buffer.Valid) {sources : List (Option Pointer)}
    (strings : AllStrings sources)
    (fits : Fits buffer.totalSize buffer.contents.length
      (sources.map fun source => (textOf source).length)) :
    ∃ filled, buffer.appendStrings true sources = .ok filled ∧ filled.Valid ∧
      filled.contents = buffer.contents ++ sources.flatMap textOf := by
  induction sources generalizing buffer with
  | nil => exact ⟨buffer, rfl, valid, (List.append_nil _).symm⟩
  | cons source sources ih =>
    rw [List.map_cons, fits_cons] at fits
    obtain ⟨room, rest⟩ := fits
    obtain ⟨next, first, kept, contents, total⟩ :=
      valid.appendString_fits (strings source (List.mem_cons_self ..)) room
    rw [← total, ← Nat.cast_add, ← List.length_append, ← contents] at rest
    obtain ⟨filled, others, last, bytes⟩ :=
      ih kept (fun other member => strings other (List.mem_cons_of_mem _ member)) rest
    refine ⟨filled, ?_, last, ?_⟩
    · rw [Buffer.appendStrings, first, ok_bind, others]
    · rw [bytes, contents, List.append_assoc, List.flatMap_cons]

/-- A string that does not fit is not appended as it is. -/
theorem Valid.appendString_unfit (valid : buffer.Valid) {source : Option Pointer}
    (isString : ∀ pointer, source = some pointer → pointer.IsString)
    (tight : ¬ (buffer.contents.length + ((textOf source).length : Int) ≤ buffer.totalSize ∨
      buffer.totalSize + (textOf source).length < 2 ^ 31))
    (success : buffer.appendString source true = .ok filled) :
    filled.contents.length < buffer.contents.length + (textOf source).length := by
  rcases Nat.lt_or_ge (textOf source).length (2 ^ 31) with small | large
  · cases source with
    | none =>
      have bounded := valid.small
      have empty : (textOf none).length = 0 := rfl
      omega
    | some pointer =>
      have text : textOf (some pointer) = pointer.string := rfl
      rw [text] at tight small
      have overflows : Overflows buffer pointer.string.length := ⟨by omega, by omega⟩
      have fails := valid.append_overflows (Int.natCast_nonneg _) (by omega) overflows pointer
      simp only [Buffer.appendString, Pointer.strlen_eq (isString pointer rfl), ok_bind,
        intOfSize_of_lt small, fails] at success
      cases success
  · exact (valid.of_appendString isString success).2.2 large

/-- Strings that do not fit are not all appended as they are. -/
theorem Valid.appendStrings_unfit (valid : buffer.Valid) {sources : List (Option Pointer)}
    (strings : AllStrings sources)
    (unfit : ¬ Fits buffer.totalSize buffer.contents.length
      (sources.map fun source => (textOf source).length))
    (success : buffer.appendStrings true sources = .ok filled) :
    filled.contents.length < buffer.contents.length + (sources.flatMap textOf).length := by
  induction sources generalizing buffer with
  | nil => exact absurd trivial unfit
  | cons source sources ih =>
    have isString := strings source (List.mem_cons_self ..)
    have others : AllStrings sources :=
      fun other member => strings other (List.mem_cons_of_mem _ member)
    obtain ⟨next, first, rest⟩ := bind_eq_ok.mp success
    rw [List.map_cons, fits_cons] at unfit
    rw [List.flatMap_cons, List.length_append]
    by_cases room : buffer.contents.length + ((textOf source).length : Int) ≤ buffer.totalSize ∨
      buffer.totalSize + (textOf source).length < 2 ^ 31
    · obtain ⟨reached, again, kept, contents, total⟩ := valid.appendString_fits isString room
      cases first.symm.trans again
      have remains : ¬ Fits next.totalSize next.contents.length
          (sources.map fun source => (textOf source).length) := by
        rw [total, contents, List.length_append, Nat.cast_add]
        exact fun fits => unfit ⟨room, fits⟩
      have shorter := ih kept others remains rest
      have length := congrArg List.length contents
      rw [List.length_append] at length
      omega
    · have shorter := valid.appendString_unfit isString room first
      have kept := (valid.of_appendString isString first).1
      have bound := (kept.of_appendStrings others rest).2
      omega

end Buffer

end Yolanda.Lib
