import Yolanda.Lib.HttpRequest

/-! Requests for which both libraries decide alike, and as the request asks, whether the
connection stays. -/

namespace Yolanda.App

open Lib (Documented)

namespace RequestText

variable {strncmp : Bytes → Bytes → Int} {text : RequestText} {request : HttpRequest}

/-- A header `Connection` begins with `Connection`. -/
theorem connectionLike_of_lookup {value : Bytes}
    (found : text.headers.lookup connectionKey = some value) : text.connectionLike ≠ none := by
  obtain ⟨before, after, shape, _⟩ := List.lookup_eq_some_iff.mp found
  have member : (connectionKey, value) ∈ text.headers := by
    rw [shape]
    exact List.mem_append_right _ (List.mem_cons_self ..)
  intro missing
  have apart := List.find?_eq_none.mp missing _ member
  have key : connectionKey <+: cString connectionKey := by decide
  exact apart (decide_eq_true key)

/-- Without a header like `Connection` only the version can ask for an end. -/
theorem not_closes_of_missing (missing : text.connectionLike = none) (recent : ¬ text.Old) :
    ¬ text.Closes := by
  rintro (found | ⟨old, _⟩)
  · exact connectionLike_of_lookup found missing
  · apply recent
    rw [Old, old]
    decide

/-- When the C library gives the answer the request asks for. -/
theorem lib_decided_iff (documented : Documented strncmp) (text : RequestText) :
    (Lib.HttpRequest.ofText text).closeConnection strncmp = .ok (if text.Closes then 1 else 0) ↔
      (text.connectionLike = none → ¬ text.Old) ∧
      (∀ header, text.connectionLike = some header → text.Closes →
        text.Dismissed strncmp header.2) ∧
      ∀ header, text.connectionLike = some header → ¬ text.Closes →
        ¬ text.Dismissed strncmp header.2 := by
  cases found : text.connectionLike with
  | none =>
    rw [Lib.HttpRequest.closeConnection_missing documented found]
    by_cases old : text.Old
    · simp [old]
    · simp [old, not_closes_of_missing found old]
  | some header =>
    rw [Lib.HttpRequest.closeConnection_found documented found]
    by_cases closes : text.Closes
    · by_cases dismissed : text.Dismissed strncmp header.2
      · simp [closes, dismissed]
      · simp [closes, dismissed]
    · by_cases dismissed : text.Dismissed strncmp header.2
      · simp [closes, dismissed]
      · simp [closes, dismissed]

/-- When the C++ library gives the answer the request asks for. -/
theorem app_decided_iff (parsed : text.Matches request) :
    request.closeConnection = .ok (decide text.Closes) ↔
      (text.version = http10 → text.headers.lookup connectionKey ≠ none) ∧
      ∀ value, text.headers.lookup connectionKey = some value → 0 ∈ value →
        cString value ≠ if text.version = http10 then keepAlive else close := by
  have header : request.headers.lookup (ascii "Connection") =
      text.headers.lookup connectionKey := parsed.headers _
  rw [HttpRequest.closeConnection, HttpRequest.getHeader, header, parsed.version]
  cases found : text.headers.lookup connectionKey with
  | none =>
    by_cases old : text.version = http10
    · simp [old]
    · simp [old, Closes, found]
  | some value =>
    have apart : close ≠ keepAlive := by decide
    by_cases clean : 0 ∈ value
    · have notClose : value ≠ close := by
        rintro rfl
        exact absurd clean (by decide)
      have notKeep : value ≠ keepAlive := by
        rintro rfl
        exact absurd clean (by decide)
      by_cases old : text.version = http10
      · by_cases closing : cString value = close
        · simp [Closes, found, old, closing, notKeep, apart]
        · simp [Closes, found, old, closing, notClose, notKeep, clean]
      · by_cases closing : cString value = close
        · simp [Closes, found, old, closing, notClose, clean]
        · simp [Closes, found, old, closing, notClose]
    · have whole := Lib.cString_eq clean
      by_cases closing : value = close
      · subst closing
        simp [Closes, found, whole, clean]
      · by_cases old : text.version = http10
        · simp [Closes, found, whole, closing, old, clean]
        · simp [Closes, found, whole, closing, old, clean]

/-- Both libraries give the answer a request asks for exactly when its texts are legible. -/
theorem decided_iff (documented : Documented strncmp) (parsed : text.Matches request) :
    text.Decided strncmp request ↔ text.Legible strncmp := by
  have app := app_decided_iff parsed
  have lib := lib_decided_iff documented text
  constructor
  · intro decided
    obtain ⟨present, whole⟩ := app.mp decided.app
    obtain ⟨missing, closing, staying⟩ := lib.mp decided.lib
    exact ⟨present, whole, missing, closing, staying⟩
  · intro legible
    exact ⟨app.mpr ⟨legible.present, legible.whole⟩,
      lib.mpr ⟨legible.missing, legible.closing, legible.staying⟩⟩

/-- A request of `HTTP/1.0` that keeps the connection. -/
def keeping : RequestText :=
  { method := ascii "GET"
    url := ascii "/"
    version := http10
    headers := [(connectionKey, keepAlive)] }

/-- A request of `HTTP/1.0` without headers. -/
def bare : RequestText := { keeping with headers := [] }

end RequestText

end Yolanda.App

namespace Yolanda.Lib

/-- The `strncmp` that subtracts the first characters that differ. -/
def difference : Bytes → Bytes → Int
  | [], [] => 0
  | [], byte :: _ => - byte.toNat
  | byte :: _, [] => byte.toNat
  | first :: left, second :: right =>
    if first = second then difference left right else first.toNat - second.toNat

private theorem toNat_ne_zero {byte : Byte} (nonzero : ¬ 0 = byte) : byte.toNat ≠ 0 := by
  intro zero
  exact nonzero (UInt8.toNat_inj.mp zero.symm)

private theorem difference_eq (left right : Bytes) (first : 0 ∉ left) (second : 0 ∉ right) :
    difference left right = 0 ↔ left = right := by
  induction left generalizing right with
  | nil =>
    cases right with
    | nil => simp [difference]
    | cons byte right =>
      rw [List.mem_cons, not_or] at second
      simp [difference, toNat_ne_zero second.1]
  | cons byte left ih =>
    cases right with
    | nil =>
      rw [List.mem_cons, not_or] at first
      simp [difference, toNat_ne_zero first.1]
    | cons other right =>
      rw [List.mem_cons, not_or] at first second
      by_cases same : byte = other
      · simp [difference, same, ih right first.2 second.2]
      · have apart : byte.toNat ≠ other.toNat := mt UInt8.toNat_inj.mp same
        have difference : (byte.toNat : Int) - other.toNat ≠ 0 := by omega
        simp [Lib.difference, same, difference]

theorem difference_documented : Documented difference where
  equal := difference_eq
  greater left right first second := by
    induction left generalizing right with
    | nil =>
      cases right with
      | nil => simp [difference]
      | cons byte right => simp [difference]
    | cons byte left ih =>
      cases right with
      | nil =>
        rw [List.mem_cons, not_or] at first
        simp [difference, Nat.pos_of_ne_zero (toNat_ne_zero first.1)]
      | cons other right =>
        rw [List.mem_cons, not_or] at first second
        rw [List.cons_lt_cons_iff]
        by_cases same : byte = other
        · simp [difference, same, ih right first.2 second.2]
        · simp [difference, same, Ne.symm same, UInt8.lt_iff_toNat_lt]

end Yolanda.Lib

namespace Yolanda.App.RequestText

theorem decided_iff_sample : keeping.Legible Lib.difference :=
  (decided_iff Lib.difference_documented keeping.parsed_matches).mp ⟨by decide, by decide⟩

/-- `KEEP_ALIVE.compare` reads through a null pointer. -/
theorem absent_header_compared : ¬ bare.Decided Lib.difference bare.parsed := by
  intro decided
  have fault : bare.parsed.closeConnection = .error .memory := by decide
  have closes := decided.app
  rw [fault] at closes
  cases closes

end Yolanda.App.RequestText
