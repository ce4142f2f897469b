import Mathlib.Data.List.Find
import Yolanda.Lib.HeaderTable
import Yolanda.Lib.KeepAlive

/-! Looking up a header in the requests of both libraries. -/

namespace Yolanda.Lib

open Foundation
open App (Headers)

/-- A request of the C library with these header lines, as the parser adds them. -/
def withHeaders (lines : List (Bytes × Bytes)) : RequestBlocks :=
  lines.foldl (fun request line => request.addHeader ⟨terminated line.1, terminated line.2⟩) .new

/-- A request of the C++ library with these header lines. -/
def appWithHeaders (lines : List (Bytes × Bytes)) : App.HttpRequest :=
  { App.HttpRequest.new with headers := Headers.addAll ∅ lines }

/-- Both libraries find the value of the first header with exactly this key, and nothing if there
is none; and the C library has stored the headers inside of its table. -/
structure LookupsAgree (strncmp : Bytes → Bytes → Int) (lines : List (Bytes × Bytes))
    (key : Bytes) : Prop where
  inside : (withHeaders lines).requestHeaders.stray = []
  app : (appWithHeaders lines).getHeader key = lines.lookup key
  lib : ∃ found, (withHeaders lines).getHeader strncmp (.ofText key) = .ok found ∧
    found.map Pointer.string = lines.lookup key

/-- The first header whose key begins with this one has the value of the first with exactly this
key. -/
def Unshadowed (lines : List (Bytes × Bytes)) (key : Bytes) : Prop :=
  ∀ header, (lines.find? fun header => key <+: header.1) = some header →
    lines.lookup key = some header.2

/-- Keys and values without zeros. -/
def Clean (lines : List (Bytes × Bytes)) : Prop :=
  ∀ line ∈ lines, 0 ∉ line.1 ∧ 0 ∉ line.2

variable {strncmp : Bytes → Bytes → Int} {lines : List (Bytes × Bytes)} {key : Bytes}

theorem withHeaders_concat (lines : List (Bytes × Bytes)) (line : Bytes × Bytes) :
    withHeaders (lines ++ [line]) =
      (withHeaders lines).addHeader ⟨terminated line.1, terminated line.2⟩ := by
  rw [withHeaders, List.foldl_append]
  rfl

/-- The table has a fixed size, and the count is that of the lines. -/
private theorem withHeaders_shape (lines : List (Bytes × Bytes)) :
    (withHeaders lines).requestHeaders.cells.length = headerCapacity ∧
      (withHeaders lines).requestHeadersNumber = lines.length := by
  induction lines using List.reverseRecOn with
  | nil => exact ⟨List.length_replicate, rfl⟩
  | append_singleton lines line ih =>
    rw [withHeaders_concat, List.length_append]
    exact ⟨(Cells.length_put ..).trans ih.1, congrArg (· + 1) ih.2⟩

/-- Lines that fit are all in the table. -/
theorem withHeaders_tracked (fits : lines.length ≤ headerCapacity) :
    RequestConnection.Tracked ⟨.new, withHeaders lines, lines⟩ := by
  induction lines using List.reverseRecOn with
  | nil => exact RequestConnection.new_tracked
  | append_singleton lines line ih =>
    rw [List.length_append, List.length_singleton] at fits
    have before := ih (by omega)
    rw [withHeaders_concat]
    exact before.add Buffer.Valid.new fits rfl rfl

/-- Headers are looked up in a request on a connection as in a request of their own. -/
theorem tracked_getHeader {connection : RequestConnection} (tracked : connection.Tracked)
    (key : Pointer) : connection.request.getHeader strncmp key =
      (withHeaders connection.lines).getHeader strncmp key := by
  rw [RequestBlocks.getHeader_seen strncmp tracked.headersSeen,
    RequestBlocks.getHeader_seen strncmp (withHeaders_tracked tracked.fits).headersSeen]

/-- Nothing is stored outside of the table exactly when all lines fit. -/
theorem withHeaders_inside :
    (withHeaders lines).requestHeaders.stray = [] ↔ lines.length ≤ headerCapacity := by
  constructor
  · intro inside
    by_contra more
    induction lines using List.reverseRecOn with
    | nil => exact more (Nat.zero_le _)
    | append_singleton lines line ih =>
      obtain ⟨capacity, number⟩ := withHeaders_shape lines
      rw [List.length_append, List.length_singleton] at more
      by_cases room : lines.length < headerCapacity
      · exact more room
      · have full : (withHeaders lines).requestHeaders.cells.length ≤
            ((withHeaders lines).requestHeadersNumber : Int) := by
          rw [capacity, number]
          exact Int.ofNat_le.mpr (Nat.le_of_not_lt room)
        rw [withHeaders_concat, RequestBlocks.addHeader, Cells.put_outside (.inr full)] at inside
        exact absurd inside (by simp)
  · exact fun fits => (withHeaders_tracked fits).inside

/-- The value of a header without zeros is read as it is. -/
private theorem lookup_clean (clean : Clean lines) :
    (lines.lookup key).map App.cString = lines.lookup key := by
  induction lines with
  | nil => rfl
  | cons line lines ih =>
    have rest := ih fun other member => clean other (List.mem_cons_of_mem _ member)
    have here := (clean line (List.mem_cons_self ..)).2
    rw [List.lookup_cons]
    split
    · exact congrArg some (cString_eq here)
    · exact rest

/-- The C++ library always finds the first header with the key. -/
theorem app_lookup (clean : Clean lines) :
    (appWithHeaders lines).getHeader key = lines.lookup key := by
  have whole := Headers.lookup_addAll ∅ lines key
  rw [AList.lookup_empty, Option.none_or] at whole
  rw [App.HttpRequest.getHeader, appWithHeaders, whole, lookup_clean clean]

/-- The C library finds the first header whose key begins with the key. -/
theorem lib_lookup (documented : Documented strncmp) (clean : Clean lines) (keyClean : 0 ∉ key)
    (fits : lines.length ≤ headerCapacity) :
    (withHeaders lines).getHeader strncmp (.ofText key) =
      .ok ((lines.find? fun header => key <+: header.1).map fun header => .ofText header.2) := by
  have seen := (withHeaders_tracked fits).headersSeen
  have texts : (lines.map fun line => RequestHeader.mk (textPointer line.1) (textPointer line.2)) =
      lines.map fun line => ⟨.ofText line.1, .ofText line.2⟩ := by
    apply List.map_congr_left
    intro line member
    rw [textPointer_clean (clean line member).1, textPointer_clean (clean line member).2]
  have strings : (lines.find? fun header => key <+: App.cString header.1) =
      lines.find? fun header => key <+: header.1 := by
    apply List.find?_congr
    intro line member
    rw [cString_eq (clean line member).1]
  rw [RequestBlocks.getHeader_seen strncmp seen, texts,
    HttpRequest.findHeader_ofText documented keyClean, strings]

/-- Without zeros in the headers the libraries agree exactly when the lines fit in the table and
no other header is found before the one that is looked up. -/
theorem lookups_agree_iff (documented : Documented strncmp) (clean : Clean lines)
    (keyClean : 0 ∉ key) :
    LookupsAgree strncmp lines key ↔ lines.length ≤ headerCapacity ∧ Unshadowed lines key := by
  have value : ∀ header, (lines.find? fun header => key <+: header.1) = some header →
      (Pointer.ofText header.2).string = header.2 := by
    intro header found
    rw [string_ofText, cString_eq (clean header (List.mem_of_find?_eq_some found)).2]
  constructor
  · intro agree
    have fits := withHeaders_inside.mp agree.inside
    refine ⟨fits, ?_⟩
    intro header first
    obtain ⟨found, success, same⟩ := agree.lib
    rw [lib_lookup documented clean keyClean fits, first] at success
    cases success
    rw [← same, Option.map_some, Option.map_some, value header first]
  · rintro ⟨fits, unshadowed⟩
    refine ⟨withHeaders_inside.mpr fits, app_lookup clean, _,
      lib_lookup documented clean keyClean fits, ?_⟩
    cases first : lines.find? fun header => key <+: header.1 with
    | some header =>
      rw [Option.map_some, Option.map_some, value header first, unshadowed header first]
    | none =>
      rw [Option.map_none, Option.map_none]
      rw [List.find?_eq_none] at first
      have missing : lines.lookup key = none := by
        rw [List.lookup_eq_none_iff]
        intro line member
        have unlike := first line member
        rw [decide_eq_true_eq] at unlike
        exact bne_iff_ne.mpr fun same => unlike (same ▸ List.prefix_refl key)
      exact missing.symm

/-- Two headers, of which the first has a longer key that begins with the second. -/
def shadowing : List (Bytes × Bytes) :=
  [(App.ascii "Accept-Language", App.ascii "de"), (App.ascii "Accept", App.ascii "text/html")]

theorem lookups_agree_sample : LookupsAgree difference shadowing (App.ascii "Accept-Language") ↔
    shadowing.length ≤ headerCapacity ∧ Unshadowed shadowing (App.ascii "Accept-Language") :=
  lookups_agree_iff difference_documented (by unfold Clean; decide) (by decide)

/-- The C library looks up `Accept` and finds `Accept-Language`. -/
theorem accept_language_found : ¬ LookupsAgree difference shadowing (App.ascii "Accept") := by
  intro agree
  obtain ⟨found, success, same⟩ := agree.lib
  rw [lib_lookup difference_documented (by unfold Clean; decide) (by decide) (by decide)] at success
  cases success
  exact absurd same (by decide)

end Yolanda.Lib
