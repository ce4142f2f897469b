import Yolanda.App.ResponseReader
import Yolanda.Lib.HttpResponse

/-! The encoders of both libraries append the same bytes. -/

namespace Yolanda.Lib

open Foundation
open App (Headers ascii decimal snprintf cString)
open Buffer (textOf AllStrings Fits)

namespace HttpResponse

/-- The headers of a response, an unset string as an empty one. -/
def headerTexts (response : HttpResponse) : List (Bytes × Bytes) :=
  (response.responseHeaders.getD []).map fun header => (textOf header.key, textOf header.value)

/-- The response of the C++ library with the same fields. -/
def app (response : HttpResponse) : App.HttpResponse where
  statusCode := response.statusCode
  statusMessage := textOf response.statusMessage
  body := textOf response.body
  headers := Headers.addAll ∅ response.headerTexts
  keepConnected := response.keepConnected

/-- A response that a callback can leave: what is set is a string, and the headers are in the order
of their keys. -/
structure Composed (response : HttpResponse) : Prop where
  leastStatus : -2 ^ 31 ≤ response.statusCode
  mostStatus : response.statusCode < 2 ^ 31
  message : ∀ pointer, response.statusMessage = some pointer → pointer.IsString
  body : ∀ pointer, response.body = some pointer → pointer.IsString
  headers : ∀ header ∈ response.responseHeaders.getD [],
    (∀ pointer, header.key = some pointer → pointer.IsString) ∧
      ∀ pointer, header.value = some pointer → pointer.IsString
  ascending : App.HttpResponse.Ascending response.headerTexts
  short : (textOf response.body).length < 2 ^ 31

/-- Both encoders return and append the same bytes. -/
def EncodersAgree (response : HttpResponse) (output : Buffer) (appOutput : App.Buffer) : Prop :=
  ∃ bytes filled appFilled, response.encodeBuffer true output = .ok filled ∧
    filled.contents = output.contents ++ bytes ∧
    response.app.encodeBuffer appOutput = .ok appFilled ∧
    appFilled.contents = appOutput.contents ++ bytes

/-- The sizes of what is appended one after the other. -/
def sizes (response : HttpResponse) : List Nat :=
  (response.strings (textOf response.body).length).map fun source => (textOf source).length

variable {response : HttpResponse} {output : Buffer} {appOutput : App.Buffer}

private theorem ascii_text {text : Bytes} (clean : 0 ∉ text) :
    textOf (some (.ofText text)) = text :=
  (string_ofText text).trans (cString_eq clean)

/-- A formatted text that fits the array of 32 cells. -/
private theorem formatted_text {text : Bytes} (fits : text.length < 32) (clean : 0 ∉ text) :
    textOf (some ⟨snprintf 32 text, 0⟩) = App.HttpResponse.formatted text := by
  have whole : textOf (some ⟨snprintf 32 text, 0⟩) = text := App.cString_snprintf fits clean
  rw [whole, App.formatted_eq (by omega) clean]

private theorem decimal_clean (number : Int) : 0 ∉ decimal number := by
  intro zero
  exact absurd (App.decimal_range zero).1 (by decide)

/-- The first line has at most 21 characters in front of the message. -/
private theorem Composed.status_text (composed : response.Composed) :
    textOf (some ⟨snprintf 32 (ascii "HTTP/1.1 " ++ decimal response.statusCode ++ ascii " "), 0⟩) =
      App.HttpResponse.formatted (ascii "HTTP/1.1 " ++ decimal response.statusCode ++ ascii " ") := by
  have digits := App.length_decimal composed.leastStatus composed.mostStatus
  have clean := decimal_clean response.statusCode
  apply formatted_text
  · simp only [List.length_append]
    have front : (ascii "HTTP/1.1 ").length = 9 := by decide
    have space : (ascii " ").length = 1 := by decide
    omega
  · simp only [List.mem_append, not_or]
    exact ⟨⟨by decide, clean⟩, by decide⟩

/-- The length of a body needs at most 29 characters. -/
private theorem length_text {size : Nat} (short : size < 2 ^ 31) :
    textOf (some ⟨snprintf 32 (ascii "Content-Length: " ++ decimal size ++ ascii "\r\n"), 0⟩) =
      App.HttpResponse.formatted (ascii "Content-Length: " ++ decimal size ++ ascii "\r\n") := by
  have digits : (decimal (size : Int)).length ≤ 11 := App.length_decimal (by omega) (by omega)
  have clean := decimal_clean (size : Int)
  apply formatted_text
  · simp only [List.length_append]
    have front : (ascii "Content-Length: ").length = 16 := by decide
    have ending : (ascii "\r\n").length = 2 := by decide
    omega
  · simp only [List.mem_append, not_or]
    exact ⟨⟨by decide, clean⟩, by decide⟩

private theorem Composed.connection_texts (composed : response.Composed) :
    (response.connectionStrings (textOf response.body).length).flatMap textOf =
      response.app.connectionText := by
  unfold connectionStrings App.HttpResponse.connectionText
  by_cases closes : response.keepConnected ≠ 0
  · have same : response.app.keepConnected ≠ 0 := closes
    rw [if_pos closes, if_pos same, List.flatMap_singleton, ascii_text (by decide)]
  · have same : ¬ response.app.keepConnected ≠ 0 := closes
    rw [if_neg closes, if_neg same, List.flatMap_cons, List.flatMap_singleton,
      length_text composed.short, ascii_text (by decide)]
    rfl

private theorem header_texts (headers : List ResponseHeader) :
    (headers.flatMap headerStrings).flatMap textOf =
      (headers.map fun header => (textOf header.key, textOf header.value)).flatMap
        App.HttpResponse.headerText := by
  induction headers with
  | nil => rfl
  | cons header headers ih =>
    have colon : textOf (some (.ofText (ascii ": "))) = ascii ": " := ascii_text (by decide)
    have ending : textOf (some (.ofText (ascii "\r\n"))) = ascii "\r\n" := ascii_text (by decide)
    simp only [List.flatMap_cons, List.flatMap_append, List.map_cons, ih, headerStrings,
      List.flatMap_nil, colon, ending, App.HttpResponse.headerText, List.append_nil,
      List.append_assoc]

/-- What the C library appends are the bytes of the response of the C++ library. -/
theorem Composed.texts (composed : response.Composed) :
    (response.strings (textOf response.body).length).flatMap textOf = response.app.wire := by
  have sorted : response.app.sortedHeaders = response.headerTexts :=
    App.HttpResponse.sortedHeaders_addAll composed.ascending rfl
  have ending : textOf (some (.ofText (ascii "\r\n"))) = ascii "\r\n" := ascii_text (by decide)
  rw [App.HttpResponse.wire, sorted]
  simp only [strings, List.flatMap_cons, List.flatMap_append, List.flatMap_nil, List.append_nil,
    composed.status_text, composed.connection_texts, header_texts, ending]
  rfl

private theorem snprintf_isString (size : Nat) (text : Bytes) :
    (Pointer.mk (snprintf size text) 0).IsString :=
  ⟨Int.le_refl 0, List.mem_append_right _ (List.mem_singleton_self _)⟩

private theorem connection_allStrings (response : HttpResponse) (size : Nat) :
    AllStrings (response.connectionStrings size) := by
  unfold connectionStrings
  split
  · simp [AllStrings, ofText_isString]
  · simp [AllStrings, ofText_isString, snprintf_isString]

private theorem Composed.header_allStrings (composed : response.Composed) :
    AllStrings ((response.responseHeaders.getD []).flatMap headerStrings) := by
  intro source member
  obtain ⟨header, listed, part⟩ := List.mem_flatMap.mp member
  obtain ⟨key, value⟩ := composed.headers header listed
  simp only [headerStrings, List.mem_cons, List.not_mem_nil, or_false] at part
  rcases part with rfl | rfl | rfl | rfl
  · exact key
  · simp [ofText_isString]
  · exact value
  · simp [ofText_isString]

/-- All that is appended are strings. -/
private theorem Composed.allStrings (composed : response.Composed) (size : Nat) :
    AllStrings (response.strings size) := by
  intro source member
  simp only [strings, List.mem_cons, List.mem_append, List.not_mem_nil, or_false] at member
  rcases member with rfl | rfl | rfl | connection | header | rfl | rfl
  · simp [snprintf_isString]
  · exact composed.message
  · simp [ofText_isString]
  · exact connection_allStrings response size source connection
  · exact composed.header_allStrings source header
  · simp [ofText_isString]
  · exact composed.body

/-- The length of a body that is set is the one of its text. -/
private theorem Composed.measured (composed : response.Composed)
    (defined : response.keepConnected ≠ 0 ∨ response.body ≠ none)
    (keeps : response.keepConnected = 0) :
    ∃ body, response.body = some body ∧ body.strlen = .ok (textOf response.body).length := by
  obtain ⟨body, set⟩ := Option.ne_none_iff_exists'.mp (defined.resolve_left (absurd keeps))
  refine ⟨body, set, ?_⟩
  rw [set]
  exact Pointer.strlen_eq (composed.body body set)

/-- A response goes behind what the buffer holds, if the block could grow by all of it. -/
theorem Composed.encodes (composed : response.Composed) (valid : output.Valid)
    (defined : response.keepConnected ≠ 0 ∨ response.body ≠ none)
    (small : output.totalSize + response.app.wire.length < 2 ^ 31) :
    ∃ filled, response.encodeBuffer true output = .ok filled ∧ filled.Valid ∧
      filled.contents = output.contents ++ response.app.wire := by
  have strings := composed.allStrings (textOf response.body).length
  have length : response.sizes.sum = response.app.wire.length := by
    rw [← composed.texts, List.length_flatMap]
    rfl
  have fits : Fits output.totalSize output.contents.length response.sizes :=
    Fits.of_small (by rwa [length])
  obtain ⟨filled, success, kept, contents⟩ := valid.appendStrings_fits strings fits
  rw [← encodeBuffer_strings (composed.measured defined)] at success
  rw [composed.texts] at contents
  exact ⟨filled, success, kept, contents⟩

/-- The encoders agree exactly when the body is set or not asked for, and the block can be enlarged
wherever it has to. -/
theorem encoders_agree_iff (composed : response.Composed) (valid : output.Valid)
    (appValid : appOutput.Valid) :
    EncodersAgree response output appOutput ↔
      (response.keepConnected ≠ 0 ∨ response.body ≠ none) ∧
        Fits output.totalSize output.contents.length response.sizes := by
  have strings := composed.allStrings (textOf response.body).length
  obtain ⟨appFilled, appSuccess, _, appContents⟩ :=
    App.HttpResponse.encodeBuffer_appends response.app appValid
  constructor
  · rintro ⟨bytes, filled, appOther, success, contents, appAgain, appSame⟩
    have defined : response.keepConnected ≠ 0 ∨ response.body ≠ none := by
      by_contra neither
      obtain ⟨keeps, unset⟩ := not_or.mp neither
      exact encodeBuffer_unset (not_not.mp keeps) (not_not.mp unset) output filled success
    refine ⟨defined, ?_⟩
    by_contra unfit
    rw [encodeBuffer_strings (composed.measured defined)] at success
    have shorter := valid.appendStrings_unfit strings unfit success
    -- the other encoder has appended everything
    cases appSuccess.symm.trans appAgain
    have whole : bytes = response.app.wire := List.append_cancel_left (appSame.symm.trans appContents)
    rw [composed.texts, contents, whole, List.length_append] at shorter
    exact Nat.lt_irrefl _ shorter
  · rintro ⟨defined, fits⟩
    obtain ⟨filled, success, _, contents⟩ := valid.appendStrings_fits strings fits
    rw [← encodeBuffer_strings (composed.measured defined)] at success
    rw [composed.texts] at contents
    exact ⟨response.app.wire, filled, appFilled, success, contents, appSuccess, appContents⟩

/-- A response as `http_response_new` leaves it. -/
theorem new_composed : HttpResponse.new.Composed where
  leastStatus := by decide
  mostStatus := by decide
  message := by simp [HttpResponse.new]
  body := by simp [HttpResponse.new]
  headers := by simp [HttpResponse.new]
  ascending := .nil
  short := by decide

/-- The response of a page that is not there, with a header whose value is not set. -/
def samplePage : HttpResponse where
  statusCode := 404
  statusMessage := some (.ofText (ascii "Not Found"))
  body := some (.ofText (ascii "no"))
  responseHeaders := some [⟨some (.ofText (ascii "Server")), none⟩]
  keepConnected := 0

private theorem samplePage_composed : samplePage.Composed where
  leastStatus := by decide
  mostStatus := by decide
  message := by simp [samplePage, ofText_isString]
  body := by simp [samplePage, ofText_isString]
  headers := by simp [samplePage, ofText_isString]
  ascending := List.pairwise_singleton _ _
  short := by decide

theorem encoders_agree_sample : EncodersAgree samplePage .new .new := by
  refine (encoders_agree_iff samplePage_composed .new App.Buffer.new_valid).mpr ⟨?_, ?_⟩
  · exact .inr (by simp [samplePage])
  · apply Fits.of_room
    have length := Buffer.Valid.new.length_contents
    have total : samplePage.sizes.sum = 81 := by decide
    rw [total, length]
    decide

/-- Encoding a new response does not return in the C library. -/
theorem new_response_undefined :
    HttpResponse.new.Composed ∧ ¬ EncodersAgree .new Buffer.new App.Buffer.new := by
  refine ⟨new_composed, ?_⟩
  rintro ⟨_, filled, _, success, _⟩
  exact encodeBuffer_unset rfl rfl Buffer.new filled success

end HttpResponse

end Yolanda.Lib
