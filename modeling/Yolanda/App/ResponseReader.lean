import Yolanda.App.Framing
import Yolanda.Foundation.Reader

/-! A client that reads the responses of a connection: a status line, header lines up to the
first blank line, and as many bytes of body as `Content-Length` says. -/

namespace Yolanda.App

open Foundation

/-- The number that decimal digits stand for. -/
def readNumber (digits : Bytes) : Option Nat :=
  if digits ≠ [] ∧ digits.all fun digit => 48 ≤ digit.toNat ∧ digit.toNat ≤ 57 then
    some (digits.foldl (fun number digit => 10 * number + (digit.toNat - 48)) 0)
  else none

/-- The number with a minus sign in front, or without. -/
def readInteger (text : Bytes) : Option Int :=
  if text.head? = some 45 then (readNumber text.tail).map fun number => -(number : Int)
  else (readNumber text).map fun number => (number : Int)

/-- The status code and message of a status line. -/
def readStatus (line : Bytes) : Option (Int × Bytes) :=
  if ascii "HTTP/1.1 " <+: line then
    match cut space (line.drop 9) with
    | some (digits, message) => (readInteger digits).map fun code => (code, message)
    | none => none
  else none

/-- The key and value of a header line. -/
def readField (line : Bytes) : Option (Bytes × Bytes) := cut colonSpace line

def contentLength : Bytes := ascii "Content-Length"

/-- What a client learns from a response. -/
structure ReceivedResponse where
  statusCode : Int
  statusMessage : Bytes
  headers : Headers
  body : Bytes

/-- The header is none that tells where the response ends. -/
def own (field : Bytes × Bytes) : Bool := field.1 ≠ contentLength ∧ field.1 ≠ connectionKey

/-- The response a text starts with, and what is behind it. -/
def readResponse (text : Bytes) : Option (ReceivedResponse × Bytes) :=
  match readLines crlf text.length text with
  | some (status :: lines, rest) =>
    match readStatus status, lines.mapM readField with
    | some (statusCode, statusMessage), some fields =>
      match (fields.lookup contentLength).bind readNumber with
      | some length =>
        if length ≤ rest.length then
          some (⟨statusCode, statusMessage, Headers.addAll ∅ (fields.filter own),
            rest.take length⟩, rest.drop length)
        else none
      | none => none
    | _, _ => none
  | _ => none

/-- The responses a text consists of. -/
def readResponses (text : Bytes) : Option (List ReceivedResponse) :=
  readAll readResponse text.length text

namespace HttpResponse

/-- `encode_buffer` of one response behind the other. -/
def encodeAll (output : Buffer) : List HttpResponse → Except Fault Buffer
  | [] => .ok output
  | response :: responses => do
    let output ← response.encodeBuffer output
    encodeAll output responses

/-- The response keeps the connection, no field has a `CR` or `LF`, no key has a `:` or is one
the encoder writes itself. The code is an `int`, the size of the body a `size_t`. -/
structure Encodable (response : HttpResponse) : Prop where
  kept : response.keepConnected = 0
  message : 13 ∉ response.statusMessage ∧ 10 ∉ response.statusMessage
  key : ∀ key value, response.headers.lookup key = some value →
    13 ∉ key ∧ 10 ∉ key ∧ 58 ∉ key ∧ key ≠ contentLength ∧ key ≠ connectionKey
  value : ∀ key value, response.headers.lookup key = some value → 13 ∉ value ∧ 10 ∉ value
  code : -2 ^ 31 ≤ response.statusCode ∧ response.statusCode < 2 ^ 31
  body : response.body.length < 2 ^ 64

/-- The client has the code, the message, the header map and the body of the response. -/
structure ReadAs (response : HttpResponse) (received : ReceivedResponse) : Prop where
  statusCode : received.statusCode = response.statusCode
  statusMessage : received.statusMessage = response.statusMessage
  headers : ∀ key, received.headers.lookup key = response.headers.lookup key
  body : received.body = response.body

end HttpResponse

section Numbers

theorem decimal_ofNat (number : Nat) :
    decimal number = (Nat.toDigits 10 number).map fun digit => UInt8.ofNat digit.toNat := rfl

/-- The digits of a number are read as the number. -/
theorem readNumber_decimal (number : Nat) : readNumber (decimal number) = some number := by
  have filled : decimal number ≠ [] := by
    rw [decimal_ofNat, ne_eq, List.map_eq_nil_iff]
    exact Nat.toDigits_ne_nil
  have value : (decimal number).foldl (fun number digit => 10 * number + (digit.toNat - 48)) 0 =
      number := by
    rw [decimal_ofNat, List.foldl_map]
    refine Eq.trans ?_ (@Nat.ofDigitChars_ten_toDigits number)
    rw [Nat.ofDigitChars_eq_foldl]
    apply List.foldl_ext
    intro sum digit member
    have range := Nat.isDigit_of_mem_toDigits (by decide) (by decide) member
    simp only [Char.isDigit, Bool.and_eq_true, decide_eq_true_eq] at range
    obtain ⟨_, most⟩ := range
    have bound : digit.toNat ≤ 57 := most
    have zero : '0'.toNat = 48 := rfl
    rw [UInt8.toNat_ofNat', zero, Nat.mod_eq_of_lt (by omega)]
  have digits : (decimal number).all fun digit => 48 ≤ digit.toNat ∧ digit.toNat ≤ 57 := by
    rw [List.all_eq_true]
    exact fun _ member => decide_eq_true (decimal_digit member)
  rw [readNumber, if_pos ⟨filled, digits⟩, value]

theorem readInteger_decimal (number : Int) : readInteger (decimal number) = some number := by
  cases number with
  | ofNat number =>
    have unsigned : (decimal (number : Int)).head? ≠ some 45 := by
      intro sign
      have digit := decimal_digit (List.mem_of_head? sign)
      exact absurd digit.1 (by decide)
    have digits : decimal (Int.ofNat number) = decimal (number : Int) := rfl
    rw [digits, readInteger, if_neg unsigned, readNumber_decimal]
    rfl
  | negSucc number =>
    have digits : decimal (Int.negSucc number) = 45 :: decimal ((number + 1 : Nat) : Int) := rfl
    rw [digits, readInteger, if_pos List.head?_cons, List.tail_cons, readNumber_decimal]
    rfl

/-- An `int` has at most eleven characters. -/
theorem length_decimal {number : Int} (least : -2 ^ 31 ≤ number) (most : number < 2 ^ 31) :
    (decimal number).length ≤ 11 := by
  have digits : ∀ size : Nat, size < 10 ^ 10 →
      ((Nat.toDigits 10 size).map fun digit => UInt8.ofNat digit.toNat).length ≤ 10 := by
    intro size small
    rw [List.length_map, Nat.length_toDigits_le_iff (by decide) (by decide)]
    exact small
  cases number with
  | ofNat number =>
    have small : number < 10 ^ 10 := by
      have bound : (number : Int) < 2 ^ 31 := most
      omega
    exact Nat.le_trans (digits number small) (by decide)
  | negSucc number =>
    have small : number + 1 < 10 ^ 10 := by
      have bound : -2 ^ 31 ≤ -((number : Int) + 1) := by
        rw [← Int.negSucc_eq]
        exact least
      omega
    exact Nat.succ_le_succ (digits (number + 1) small)

end Numbers

namespace HttpResponse

variable {response : HttpResponse}

theorem Encodable.plain (encodable : response.Encodable) : response.Plain := by
  have returns : ∀ {text : Bytes}, (13 : Byte) ∉ text → ¬ crlf <:+: text := by
    intro text without occurs
    exact without (occurs.subset (List.mem_cons_self ..))
  refine ⟨returns encodable.message.1, ?_, encodable.body⟩
  intro key value found
  exact ⟨returns (encodable.key key value found).1, returns (encodable.value key value found).1⟩

theorem Encodable.statusLine_eq (encodable : response.Encodable) :
    response.statusLine = ascii "HTTP/1.1 " ++
      (decimal response.statusCode ++ space ++ response.statusMessage) := by
  have digits := length_decimal encodable.code.1 encodable.code.2
  have front : (ascii "HTTP/1.1 ").length = 9 := by decide
  have back : ascii " " = space := by decide
  have whole : formatted (ascii "HTTP/1.1 " ++ decimal response.statusCode ++ ascii " ") =
      ascii "HTTP/1.1 " ++ decimal response.statusCode ++ ascii " " := by
    apply formatted_eq
    · rw [List.length_append, List.length_append, front, back]
      change 9 + _ + 1 ≤ 255
      omega
    · intro zero
      rcases List.mem_append.mp zero with early | last
      · rcases List.mem_append.mp early with name | digit
        · exact absurd name (by decide)
        · exact absurd (decimal_range digit).1 (by decide)
      · exact absurd last (by decide)
  rw [statusLine, whole, back]
  simp only [List.append_assoc]

theorem Encodable.readStatus (encodable : response.Encodable) :
    readStatus response.statusLine = some (response.statusCode, response.statusMessage) := by
  have starts : ascii "HTTP/1.1 " <+: response.statusLine := by
    rw [encodable.statusLine_eq]
    exact List.prefix_append _ _
  have behind : response.statusLine.drop 9 =
      decimal response.statusCode ++ space ++ response.statusMessage := by
    have nine : 9 = (ascii "HTTP/1.1 ").length := by decide
    rw [encodable.statusLine_eq, nine, List.drop_left]
  have clear : ¬ space <:+: decimal response.statusCode := by
    intro occurs
    have digit := decimal_range (occurs.subset (List.mem_cons_self ..))
    exact absurd digit.1 (by decide)
  rw [App.readStatus, if_pos starts, behind, cut_append space_borderless clear]
  simp only [readInteger_decimal]
  rfl

/-- The header lines of a response that keeps its connection, the two of the encoder first. -/
def fields (response : HttpResponse) : List (Bytes × Bytes) :=
  (contentLength, decimal response.body.length) :: (connectionKey, keepAlive) ::
    response.sortedHeaders

theorem headLines_eq (kept : response.keepConnected = 0) :
    response.headLines = response.statusLine :: response.fields.map headerLine := by
  have length : lengthLine response.body.length =
      headerLine (contentLength, decimal response.body.length) := by
    have name : ascii "Content-Length: " = contentLength ++ ascii ": " := by decide
    rw [lengthLine, headerLine, name, List.append_assoc]
  have keeps : keepAliveLine = headerLine (connectionKey, keepAlive) := by decide
  rw [headLines, connectionLines, if_neg (not_not_intro kept), length, keeps]
  rfl

/-- A line whose key has no colon is taken apart behind its key. -/
theorem readField_headerLine {field : Bytes × Bytes} (without : (58 : Byte) ∉ field.1) :
    readField (headerLine field) = some field := by
  have clear : ¬ colonSpace <:+: field.1 := by
    intro occurs
    exact without (occurs.subset (List.mem_cons_self ..))
  have found := cut_append colonSpace_borderless clear field.2
  rwa [List.append_assoc] at found

theorem mapM_readField {fields : List (Bytes × Bytes)}
    (without : ∀ field ∈ fields, (58 : Byte) ∉ field.1) :
    (fields.map headerLine).mapM readField = some fields := by
  induction fields with
  | nil => rfl
  | cons field fields ih =>
    have first := readField_headerLine (without field (List.mem_cons_self ..))
    have rest := ih fun other member => without other (List.mem_cons_of_mem field member)
    rw [List.map_cons, List.mapM_cons, first, rest]
    rfl

theorem Encodable.mapM_fields (encodable : response.Encodable) :
    (response.fields.map headerLine).mapM readField = some response.fields := by
  apply mapM_readField
  intro field member
  rcases List.mem_cons.mp member with rfl | member
  · change (58 : Byte) ∉ contentLength
    decide
  rcases List.mem_cons.mp member with rfl | member
  · change (58 : Byte) ∉ connectionKey
    decide
  · exact (encodable.key field.1 field.2 (mem_sortedHeaders.mp member)).2.2.1

/-- Without the two lines of the encoder the headers of the response are left. -/
theorem Encodable.filter_own (encodable : response.Encodable) :
    response.fields.filter own = response.sortedHeaders := by
  have kept : ∀ field ∈ response.sortedHeaders, own field = true := by
    intro field member
    have key := encodable.key field.1 field.2 (mem_sortedHeaders.mp member)
    exact decide_eq_true key.2.2.2
  have first : own (contentLength, decimal response.body.length) = false := by
    simp [own]
  have second : own (connectionKey, keepAlive) = false := by
    simp [own]
  rw [fields, List.filter_cons_of_neg (Bool.not_eq_true _ ▸ first),
    List.filter_cons_of_neg (Bool.not_eq_true _ ▸ second), List.filter_eq_self.mpr kept]

theorem lookup_sortedHeaders (key : Bytes) :
    response.sortedHeaders.lookup key = response.headers.lookup key := by
  cases found : response.sortedHeaders.lookup key with
  | none =>
    cases held : response.headers.lookup key with
    | none => rfl
    | some value =>
      have differs := List.lookup_eq_none_iff.mp found _ (mem_sortedHeaders.mpr held)
      simp at differs
  | some value =>
    obtain ⟨before, after, shape, _⟩ := List.lookup_eq_some_iff.mp found
    have member : (key, value) ∈ response.sortedHeaders := by
      rw [shape]
      exact List.mem_append_right _ (List.mem_cons_self ..)
    exact (mem_sortedHeaders.mp member).symm

/-- The keys are listed in ascending order. -/
def Ascending (headers : List (Bytes × Bytes)) : Prop :=
  headers.Pairwise fun left right => left.1 < right.1

/-- In an ascending list every header is the first with its key. -/
theorem Ascending.lookup_iff {headers : List (Bytes × Bytes)} (ascending : Ascending headers)
    {key value : Bytes} : headers.lookup key = some value ↔ (key, value) ∈ headers := by
  induction headers with
  | nil => simp
  | cons header headers ih =>
    obtain ⟨first, others⟩ := List.pairwise_cons.mp ascending
    rw [List.mem_cons]
    by_cases same : key = header.1
    · have absent : (key, value) ∉ headers := by
        intro member
        exact List.lt_irrefl _ (same ▸ first _ member)
      subst key
      rw [List.lookup_cons_self, Option.some_inj, or_iff_left absent, Prod.ext_iff]
      exact ⟨fun equal => ⟨rfl, equal.symm⟩, fun equal => equal.2.symm⟩
    · have differs : (key, value) ≠ header := fun equal => same (congrArg Prod.fst equal)
      have skipped : (key == header.1) = false := beq_eq_false_iff_ne.mpr same
      rw [List.lookup_cons, skipped, or_iff_right differs]
      exact ih others

/-- A map is traversed in ascending order. -/
theorem sortedHeaders_ascending (response : HttpResponse) : Ascending response.sortedHeaders := by
  have distinct : response.sortedHeaders.Pairwise fun left right => left.1 ≠ right.1 := by
    have entries : (response.headers.entries.map fun entry => (entry.1, entry.2)).Pairwise
        fun left right => left.1 ≠ right.1 := by
      rw [List.pairwise_map]
      exact List.nodupKeys_iff_pairwise.mp response.headers.nodupKeys
    exact (List.perm_insertionSort _ _).symm.pairwise entries (fun differ => differ.symm)
  have ordered : response.sortedHeaders.Pairwise fun left right => left.1 ≤ right.1 :=
    List.pairwise_insertionSort _ _
  refine (ordered.and distinct).imp fun both => ?_
  by_contra notLess
  exact both.2 (List.le_antisymm both.1 notLess)

/-- A map into which a list in ascending order has been put is traversed as listed. -/
theorem sortedHeaders_addAll {headers : List (Bytes × Bytes)} (ascending : Ascending headers)
    (filled : response.headers = Headers.addAll ∅ headers) : response.sortedHeaders = headers := by
  have sorted := response.sortedHeaders_ascending
  have members : ∀ header, header ∈ response.sortedHeaders ↔ header ∈ headers := by
    rintro ⟨key, value⟩
    rw [← sorted.lookup_iff, ← ascending.lookup_iff, lookup_sortedHeaders, filled,
      Headers.lookup_addAll, AList.lookup_empty, Option.none_or]
  have irreflexive : Std.Irrefl fun left right : Bytes × Bytes => left.1 < right.1 :=
    ⟨fun header => List.lt_irrefl header.1⟩
  have antisymmetric : Std.Antisymm fun left right : Bytes × Bytes => left.1 < right.1 :=
    ⟨fun _ _ less greater => absurd less (List.lt_asymm greater)⟩
  exact sorted.eq_of_mem_iff ascending members

/-- What a client should have of the response. -/
def received (response : HttpResponse) : ReceivedResponse where
  statusCode := response.statusCode
  statusMessage := response.statusMessage
  headers := Headers.addAll ∅ response.sortedHeaders
  body := response.body

theorem received_readAs (response : HttpResponse) : response.ReadAs response.received := by
  refine ⟨rfl, rfl, ?_, rfl⟩
  intro key
  rw [received, Headers.lookup_addAll, AList.lookup_empty, Option.none_or, lookup_sortedHeaders]

/-- The bytes of a response are read as the response, whatever stands behind them. -/
theorem Encodable.delimits (encodable : response.Encodable) :
    Delimits readResponse response.wire response.received := by
  have headed := encodable.plain.headed
  constructor
  · intro empty
    have short := headed.length_lt crlf_borderless
    rw [empty] at short
    exact absurd short (Nat.not_lt_zero _)
  · intro rest
    have behind := headed.append rest
    have lines := behind.readLines crlf_borderless (behind.length_lt crlf_borderless)
    have length : (response.fields.lookup contentLength).bind readNumber =
        some response.body.length := by
      rw [fields, List.lookup_cons_self, Option.bind_some, readNumber_decimal]
    have fits : response.body.length ≤ (response.body ++ rest).length := by
      rw [List.length_append]
      exact Nat.le_add_right _ _
    rw [headLines_eq encodable.kept] at lines
    rw [readResponse, lines]
    simp only [encodable.readStatus, encodable.mapM_fields, length, if_pos fits,
      encodable.filter_own, List.take_left, List.drop_left]
    rfl

theorem encodeAll_appends (responses : List HttpResponse) {output : Buffer}
    (valid : output.Valid) : Appends output (encodeAll output responses)
      (responses.flatMap wire) := by
  induction responses generalizing output with
  | nil => exact ⟨output, rfl, valid, (List.append_nil _).symm⟩
  | cons response responses ih =>
    rw [List.flatMap_cons]
    apply Appends.bind (response.encodeBuffer_appends valid)
    intro output valid
    exact ih valid

/-- Encoded responses are read back one by one, with nothing left of them. -/
theorem responses_read_back {responses : List HttpResponse}
    (encodable : ∀ response ∈ responses, response.Encodable) {output : Buffer}
    (valid : output.Valid) :
    ∃ filled text received, encodeAll output responses = .ok filled ∧ filled.Valid ∧
      filled.contents = output.contents ++ text ∧ readResponses text = some received ∧
      List.Forall₂ ReadAs responses received := by
  obtain ⟨filled, success, kept, contents⟩ := encodeAll_appends responses valid
  have delimits := fun response member => (encodable response member).delimits
  have enough : responses.length ≤ (responses.flatMap wire).length :=
    length_le_flatMap fun response member => (delimits response member).1
  refine ⟨filled, responses.flatMap wire, responses.map received, success, kept, contents,
    readAll_flatMap delimits enough, ?_⟩
  rw [List.forall₂_map_right_iff, List.forall₂_same]
  exact fun response _ => response.received_readAs

/-- A page with a header of its own and a blank line in its body. -/
def samplePage : HttpResponse where
  statusCode := 200
  statusMessage := ascii "OK"
  body := ascii "a

b"
  headers := Headers.emplace ∅ (ascii "Content-Type") (ascii "text/plain")
  keepConnected := 0

theorem samplePage_encodable : samplePage.Encodable := by
  have only : ∀ key value, samplePage.headers.lookup key = some value →
      key = ascii "Content-Type" ∧ value = ascii "text/plain" := by
    intro key value found
    have shape := Headers.lookup_emplace ∅ (ascii "Content-Type") (ascii "text/plain") key
    rw [AList.lookup_empty, Option.none_or] at shape
    rw [samplePage, shape] at found
    split at found
    · exact ⟨‹_›, (Option.some.inj found).symm⟩
    · cases found
  refine ⟨rfl, by decide, ?_, ?_, by decide, by decide⟩
  · intro key value found
    rw [(only key value found).1]
    decide
  · intro key value found
    rw [(only key value found).2]
    decide

theorem responses_read_back_sample :
    ∃ filled text received, encodeAll Buffer.new [samplePage, samplePage] = .ok filled ∧
      filled.Valid ∧ filled.contents = Buffer.new.contents ++ text ∧
      readResponses text = some received ∧
      List.Forall₂ ReadAs [samplePage, samplePage] received := by
  apply responses_read_back
  · intro response member
    simp only [List.mem_cons, List.not_mem_nil, or_false, or_self] at member
    exact member ▸ samplePage_encodable
  · exact Buffer.new_valid

end HttpResponse

end Yolanda.App
