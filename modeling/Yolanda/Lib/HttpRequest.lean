import Yolanda.App.RoundTrip
import Yolanda.Lib.Buffer

/-! The requests of the C library, whose fields are C strings, and when it closes a connection.
What `strncmp` returns for strings that differ is known by its sign only. -/

namespace Yolanda.Lib

open App (RequestText cString connectionKey http10 keepAlive)

/-- The characters `strncmp` looks at: up to a zero, and no more than `count`. -/
def Pointer.front (pointer : Pointer) (count : Nat) : Except Stop Bytes :=
  if 0 ≤ pointer.offset ∧ (count ≤ pointer.rest.length ∨ 0 ∈ pointer.rest) then
    .ok (pointer.string.take count)
  else .error .memory

/-- A string as it lies in memory. -/
def Pointer.ofText (text : Bytes) : Pointer := ⟨text ++ [0], 0⟩

/-- What is documented of `strncmp` on the characters it looks at. -/
structure Documented (strncmp : Bytes → Bytes → Int) : Prop where
  equal : ∀ left right, 0 ∉ left → 0 ∉ right → (strncmp left right = 0 ↔ left = right)
  greater : ∀ left right, 0 ∉ left → 0 ∉ right → (0 < strncmp left right ↔ right < left)

/-- `struct request_header` -/
structure RequestHeader where
  key : Pointer
  value : Pointer

/-- `struct http_request`, with the headers that `request_headers_number` counts. -/
structure HttpRequest where
  version : Option Pointer
  requestHeaders : Option (List RequestHeader)

namespace HttpRequest

variable (strncmp : Bytes → Bytes → Int)

/-- `strncmp(left, right, strlen(right))` -/
def compare (left right : Pointer) : Except Stop Int := do
  let count ← right.strlen
  let first ← left.front count
  let second ← right.front count
  return strncmp first second

/-- The loop of `http_request_get_header`. -/
def findHeader (key : Pointer) : List RequestHeader → Except Stop (Option Pointer)
  | [] => .ok none
  | header :: headers => do
    let order ← compare strncmp header.key key
    if order = 0 then return some header.value else findHeader key headers

/-- `http_request_get_header` -/
def getHeader (request : HttpRequest) (key : Pointer) : Except Stop (Option Pointer) :=
  match request.requestHeaders with
  | none => .ok none
  | some headers => findHeader strncmp key headers

/-- `http_request_close_connection`. The last comparison is made through a null pointer if
there is no `Connection`. -/
def closeConnection (request : HttpRequest) : Except Stop Int := do
  let connection ← request.getHeader strncmp (.ofText connectionKey)
  let closing ← (match connection with
    | none => return false
    | some value => do
      let order ← compare strncmp value (.ofText App.close)
      return decide (order = 0))
  if closing then return 1
  else
    match request.version with
    | none => return 0
    | some version => do
      let order ← compare strncmp version (.ofText http10)
      if order = 0 then
        match connection with
        | none => throw .memory
        | some value => do
          let order ← compare strncmp value (.ofText keepAlive)
          if order = 1 then return 1 else return 0
      else return 0

/-- A request with the version and the header lines of a text. -/
def ofText (text : RequestText) : HttpRequest where
  version := some (.ofText text.version)
  requestHeaders := some (text.headers.map fun header => ⟨.ofText header.1, .ofText header.2⟩)

end HttpRequest

end Yolanda.Lib

namespace Yolanda.App.RequestText

/-- The header `Connection` asks to close the connection, or the version wants it to ask
for the opposite. -/
def Closes (text : RequestText) : Prop :=
  text.headers.lookup connectionKey = some close ∨
    text.version = http10 ∧ text.headers.lookup connectionKey ≠ some keepAlive

instance (text : RequestText) : Decidable text.Closes :=
  inferInstanceAs (Decidable (_ ∨ _))

/-- The first header whose key begins with `Connection`. -/
def connectionLike (text : RequestText) : Option (Bytes × Bytes) :=
  text.headers.find? fun header => connectionKey <+: cString header.1

/-- The version begins with `HTTP/1.0`. -/
def Old (text : RequestText) : Prop := http10 <+: cString text.version

instance (text : RequestText) : Decidable text.Old :=
  inferInstanceAs (Decidable (_ <+: _))

/-- Both libraries give the answer that the request asks for. -/
structure Decided (strncmp : Bytes → Bytes → Int) (text : RequestText) (request : HttpRequest) :
    Prop where
  app : request.closeConnection = .ok (decide text.Closes)
  lib : (Lib.HttpRequest.ofText text).closeConnection strncmp = .ok (if text.Closes then 1 else 0)

/-- A value is taken for one that closes the connection, by how it begins or by how it
compares with `Keep-Alive`. -/
def Dismissed (strncmp : Bytes → Bytes → Int) (text : RequestText) (value : Bytes) : Prop :=
  close <+: cString value ∨
    text.Old ∧ strncmp ((cString value).take keepAlive.length) keepAlive = 1

instance (strncmp : Bytes → Bytes → Int) (text : RequestText) (value : Bytes) :
    Decidable (text.Dismissed strncmp value) :=
  inferInstanceAs (Decidable (_ ∨ _))

/-- What the texts must be like: an `HTTP/1.0` request has a `Connection`, whose value is not
`Keep-Alive` with a zero and more behind it, in another version not `close` with a zero
behind it. The header that begins with `Connection` is dismissed in a request that closes and
not in others, and without such a header the version does not begin with `HTTP/1.0`. -/
structure Legible (strncmp : Bytes → Bytes → Int) (text : RequestText) : Prop where
  present : text.version = http10 → text.headers.lookup connectionKey ≠ none
  whole : ∀ value, text.headers.lookup connectionKey = some value → 0 ∈ value →
    cString value ≠ if text.version = http10 then keepAlive else close
  missing : text.connectionLike = none → ¬ text.Old
  closing : ∀ header, text.connectionLike = some header → text.Closes →
    text.Dismissed strncmp header.2
  staying : ∀ header, text.connectionLike = some header → ¬ text.Closes →
    ¬ text.Dismissed strncmp header.2

end Yolanda.App.RequestText

namespace Yolanda.Lib

open App (RequestText cString connectionKey http10 keepAlive)

section Strings

variable {strncmp : Bytes → Bytes → Int} {left right : Bytes}

theorem cString_clean (text : Bytes) : 0 ∉ cString text := by
  induction text with
  | nil => exact List.not_mem_nil
  | cons byte text ih =>
    unfold cString at ih ⊢
    rw [List.takeWhile_cons]
    split
    · rename_i nonzero
      rw [List.mem_cons, not_or]
      exact ⟨fun zero => of_decide_eq_true nonzero zero.symm, ih⟩
    · exact List.not_mem_nil

theorem cString_eq (clean : 0 ∉ left) : cString left = left := by
  induction left with
  | nil => rfl
  | cons byte text ih =>
    rw [List.mem_cons, not_or] at clean
    have nonzero : decide (byte ≠ 0) = true := decide_eq_true (Ne.symm clean.1)
    have rest := ih clean.2
    unfold cString at rest ⊢
    rw [List.takeWhile_cons, if_pos nonzero, rest]

theorem string_ofText (text : Bytes) : (Pointer.ofText text).string = cString text := by
  unfold Pointer.string Pointer.rest Pointer.ofText cString
  rw [Int.toNat_zero, List.drop_zero]
  induction text with
  | nil => rfl
  | cons byte text ih =>
    rw [List.cons_append, List.takeWhile_cons, List.takeWhile_cons, ih]

theorem ofText_isString (text : Bytes) : (Pointer.ofText text).IsString :=
  ⟨Int.le_refl 0, List.mem_append_right _ (List.mem_singleton_self _)⟩

theorem compare_ofText (clean : 0 ∉ right) :
    HttpRequest.compare strncmp (.ofText left) (.ofText right) =
      .ok (strncmp ((cString left).take right.length) right) := by
  have whole : (Pointer.ofText right).string = right := by
    rw [string_ofText, cString_eq clean]
  have length : (Pointer.ofText right).strlen = .ok right.length := by
    have counted : (Pointer.ofText right).strlen = .ok (Pointer.ofText right).string.length :=
      if_pos (ofText_isString right)
    rw [counted, whole]
  have first : (Pointer.ofText left).front right.length =
      .ok ((cString left).take right.length) := by
    have front : (Pointer.ofText left).front right.length =
        .ok ((Pointer.ofText left).string.take right.length) :=
      if_pos ⟨(ofText_isString left).1, .inr (ofText_isString left).2⟩
    rw [front, string_ofText]
  have second : (Pointer.ofText right).front right.length = .ok right := by
    have front : (Pointer.ofText right).front right.length =
        .ok ((Pointer.ofText right).string.take right.length) :=
      if_pos ⟨(ofText_isString right).1, .inr (ofText_isString right).2⟩
    rw [front, whole, List.take_length]
  simp only [HttpRequest.compare, length, first, second, ok_bind]
  rfl

/-- A comparison over the length of a string asks whether the other begins with it. -/
theorem compare_zero (documented : Documented strncmp) (clean : 0 ∉ right) :
    strncmp ((cString left).take right.length) right = 0 ↔ right <+: cString left := by
  have front : 0 ∉ (cString left).take right.length := by
    intro member
    exact cString_clean left (List.mem_of_mem_take member)
  rw [documented.equal _ _ front clean, List.prefix_iff_eq_take]
  exact eq_comm

end Strings

namespace HttpRequest

variable {strncmp : Bytes → Bytes → Int} {text : RequestText}

theorem findHeader_ofText (documented : Documented strncmp) {key : Bytes} (clean : 0 ∉ key)
    (headers : List (Bytes × Bytes)) :
    findHeader strncmp (.ofText key)
        (headers.map fun header => ⟨.ofText header.1, .ofText header.2⟩) =
      .ok ((headers.find? fun header => key <+: cString header.1).map fun header =>
        .ofText header.2) := by
  induction headers with
  | nil => rfl
  | cons header headers ih =>
    rw [List.map_cons, findHeader, compare_ofText clean, ok_bind]
    by_cases found : key <+: cString header.1
    · have zero := (compare_zero documented clean).mpr found
      have first : decide (key <+: cString header.1) = true := decide_eq_true found
      rw [if_pos zero, List.find?_cons, first]
      rfl
    · have apart := mt (compare_zero documented clean).mp found
      have other : decide (key <+: cString header.1) = false := decide_eq_false found
      rw [if_neg apart, List.find?_cons, other]
      exact ih

/-- The header the C library finds for `Connection`. -/
private theorem connection_ofText (documented : Documented strncmp) (text : RequestText) :
    (ofText text).getHeader strncmp (.ofText connectionKey) =
      .ok (text.connectionLike.map fun header => .ofText header.2) :=
  findHeader_ofText documented (by decide) text.headers

private theorem version_ofText (text : RequestText) :
    compare strncmp (.ofText text.version) (.ofText http10) =
      .ok (strncmp ((cString text.version).take http10.length) http10) :=
  compare_ofText (by decide)

private theorem version_zero (documented : Documented strncmp) (text : RequestText) :
    strncmp ((cString text.version).take http10.length) http10 = 0 ↔ text.Old :=
  compare_zero documented (by decide)

/-- Without a header the C library compares a null pointer if the version is old. -/
theorem closeConnection_missing (documented : Documented strncmp)
    (missing : text.connectionLike = none) :
    (ofText text).closeConnection strncmp =
      if text.Old then .error .memory else .ok 0 := by
  have version := version_zero documented text
  unfold closeConnection
  rw [connection_ofText documented, ok_bind, missing]
  simp only [ofText, Option.map_none, version_ofText, pure_bind, ok_bind]
  by_cases old : text.Old
  · rw [if_pos old, if_pos (version.mpr old)]
    rfl
  · rw [if_neg old, if_neg (mt version.mp old)]
    rfl

/-- With a header its value decides. -/
theorem closeConnection_found (documented : Documented strncmp) {header : Bytes × Bytes}
    (found : text.connectionLike = some header) :
    (ofText text).closeConnection strncmp =
      .ok (if text.Dismissed strncmp header.2 then 1 else 0) := by
  have version := version_zero documented text
  have closes : compare strncmp (.ofText header.2) (.ofText App.close) =
      .ok (strncmp ((cString header.2).take App.close.length) App.close) :=
    compare_ofText (by decide)
  have starts : strncmp ((cString header.2).take App.close.length) App.close = 0 ↔
      App.close <+: cString header.2 := compare_zero documented (by decide)
  have keeps : compare strncmp (.ofText header.2) (.ofText keepAlive) =
      .ok (strncmp ((cString header.2).take keepAlive.length) keepAlive) :=
    compare_ofText (by decide)
  unfold closeConnection
  rw [connection_ofText documented, ok_bind, found]
  simp only [ofText, Option.map_some, closes, version_ofText, keeps, ok_bind, pure_bind]
  by_cases front : App.close <+: cString header.2
  · have dismissed : text.Dismissed strncmp header.2 := .inl front
    rw [if_pos dismissed, if_pos (decide_eq_true (starts.mpr front))]
    rfl
  · have other : ¬ decide (strncmp ((cString header.2).take App.close.length) App.close = 0) =
        true := by
      rw [decide_eq_true_eq]
      exact mt starts.mp front
    rw [if_neg other]
    by_cases old : text.Old
    · rw [if_pos (version.mpr old)]
      by_cases one : strncmp ((cString header.2).take keepAlive.length) keepAlive = 1
      · have dismissed : text.Dismissed strncmp header.2 := .inr ⟨old, one⟩
        rw [if_pos dismissed, if_pos one]
        rfl
      · have kept : ¬ text.Dismissed strncmp header.2 := by
          rintro (starts | ⟨_, same⟩)
          · exact front starts
          · exact one same
        rw [if_neg kept, if_neg one]
        rfl
    · have kept : ¬ text.Dismissed strncmp header.2 := by
        rintro (starts | ⟨ancient, _⟩)
        · exact front starts
        · exact old ancient
      rw [if_neg kept, if_neg (mt version.mp old)]
      rfl

end HttpRequest

end Yolanda.Lib
