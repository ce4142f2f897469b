import Yolanda.Lib.ParserStep

/-! What `process_status_line` of the C library stores: the terminators of all three strings
lie behind their blocks. -/

namespace Yolanda.Lib

open Foundation
open App (space)

/-- A block that is read as a C string. -/
def stringOf (block : Cells Byte) : Option Bytes :=
  Cells.upTo (· == 0) block.cells

/-- The part of a line before the first space, the part between it and the next, and the rest. -/
def methodOf (line : Bytes) : Bytes := line.take (line.idxOf 32)

def restOf (line : Bytes) : Bytes := line.drop (line.idxOf 32 + 1)

def urlOf (line : Bytes) : Bytes := methodOf (restOf line)

def versionOf (line : Bytes) : Bytes := restOf (restOf line)

/-- Every byte that is stored for a field lies inside the block that is allocated for it. -/
def StoresInside (field : Option (Cells Byte)) : Prop :=
  ∃ block, field = some block ∧ block.stray = []

/-- A field that is read as a C string has this text. -/
def ReadsAs (field : Option (Cells Byte)) (text : Bytes) : Prop :=
  ∃ block, field = some block ∧ stringOf block = some text

/-- The line from `start` up to `stop` is stored within the blocks of its fields, which hold its
parts as C strings. -/
def LineStored (parsing : Parsing) (start stop : Int) : Prop :=
  ∃ size after, parsing.processStatusLine start stop = .ok (size, after) ∧
    (StoresInside after.request.method ∧ StoresInside after.request.url ∧
      StoresInside after.request.version) ∧
    (0 ∉ parsing.line start stop →
      ReadsAs after.request.method (methodOf (parsing.line start stop)) ∧
      ReadsAs after.request.url (urlOf (parsing.line start stop)) ∧
      ReadsAs after.request.version (versionOf (parsing.line start stop)))

/-- A string without a terminator cannot be read. -/
theorem unterminated_unread {text : Bytes} (clean : 0 ∉ text) (other : Bytes) :
    ¬ ReadsAs (some (unterminated text)) other := by
  rintro ⟨block, same, reads⟩
  cases same
  have nonzero : ∀ byte ∈ padded text, (byte == 0) = false := by
    rw [padded_clean clean]
    intro byte member
    exact beq_false_of_ne fun zero => clean (zero ▸ member)
  have unread := Cells.upTo_none nonzero 1
  rw [stringOf, unterminated, unread] at reads
  cases reads

/-- The terminator of a field is stored behind its block. -/
theorem unterminated_outside (text : Bytes) : ¬ StoresInside (some (unterminated text)) := by
  rintro ⟨block, same, inside⟩
  cases same
  cases inside

variable {parsing : Parsing} {start stop : Int}

/-- A line with two spaces is always taken apart, and its parts are copied. -/
theorem processStatusLine_parts (placed : parsing.Placed start stop)
    (spaces : 2 ≤ (parsing.line start stop).count 32) :
    ∃ after, parsing.processStatusLine start stop = .ok (stop - start, after) ∧
      after.request.method = some (unterminated (methodOf (parsing.line start stop))) ∧
      after.request.url = some (unterminated (urlOf (parsing.line start stop))) ∧
      after.request.version = some (unterminated (versionOf (parsing.line start stop))) := by
  obtain ⟨member, more⟩ := mem_behind_first spaces
  refine ⟨_, Parsing.processStatusLine_found placed (search_singleton member)
    (search_singleton more), rfl, rfl, ?_⟩
  rw [versionOf, restOf, restOf, List.drop_drop]
  rfl

/-- No line with two spaces is stored within the blocks of its fields, and none of the fields of
a line without zeros can be read as a C string. -/
theorem line_never_stored (placed : parsing.Placed start stop)
    (spaces : 2 ≤ (parsing.line start stop).count 32) :
    ¬ LineStored parsing start stop ∧
      ∃ after, parsing.processStatusLine start stop = .ok (stop - start, after) ∧
        ∀ field ∈ [after.request.method, after.request.url, after.request.version],
          ¬ StoresInside field ∧
            (0 ∉ parsing.line start stop → ∀ text, ¬ ReadsAs field text) := by
  obtain ⟨after, success, method, url, version⟩ := processStatusLine_parts placed spaces
  constructor
  · rintro ⟨size, other, again, ⟨inside, _, _⟩, _⟩
    cases success.symm.trans again
    rw [method] at inside
    exact unterminated_outside _ inside
  · refine ⟨after, success, ?_⟩
    have clean : ∀ {part : Bytes}, part <:+: parsing.line start stop →
        0 ∉ parsing.line start stop → 0 ∉ part :=
      fun inner free member => free (inner.subset member)
    have rest : ∀ line : Bytes, restOf line <:+: line :=
      fun line => (List.drop_suffix ..).isInfix
    have front : ∀ line : Bytes, methodOf line <:+: line :=
      fun line => (List.take_prefix ..).isInfix
    intro field member
    simp only [method, url, version, List.mem_cons, List.not_mem_nil, or_false] at member
    rcases member with rfl | rfl | rfl
    · exact ⟨unterminated_outside _, fun free => unterminated_unread (clean (front _) free)⟩
    · exact ⟨unterminated_outside _, fun free =>
        unterminated_unread (clean ((front _).trans (rest _)) free)⟩
    · exact ⟨unterminated_outside _, fun free =>
        unterminated_unread (clean ((rest _).trans (rest _)) free)⟩

/-- A request line in the input. -/
def sampleLine : Parsing :=
  { input :=
      { data := App.ascii "GET / HTTP/1.1\r\n", readIndex := 0, writeIndex := 16, totalSize := 16 }
    request := .new
    log := [] }

theorem sampleLine_placed : sampleLine.Placed 0 14 :=
  ⟨by decide, by decide, by decide, by decide⟩

theorem line_never_stored_sample : ¬ LineStored sampleLine 0 14 ∧
    ∃ after, sampleLine.processStatusLine 0 14 = .ok (14 - 0, after) ∧
      ∀ field ∈ [after.request.method, after.request.url, after.request.version],
        ¬ StoresInside field ∧ (0 ∉ sampleLine.line 0 14 → ∀ text, ¬ ReadsAs field text) :=
  line_never_stored sampleLine_placed (by decide)

/-- The zero behind `GET` goes to the fifth place of a block of four bytes. -/
theorem request_line_outside : ¬ LineStored sampleLine 0 14 ∧
    (sampleLine.processStatusLine 0 14).toOption.bind (fun outcome =>
      outcome.2.request.method.map fun block => (block.cells.length, block.stray)) =
        some (4, [4]) := by
  constructor
  · rintro ⟨size, other, again, ⟨inside, _, _⟩, _⟩
    obtain ⟨after, success, method, _⟩ := processStatusLine_parts sampleLine_placed (by decide)
    cases success.symm.trans again
    rw [method] at inside
    exact unterminated_outside _ inside
  · rfl

end Yolanda.Lib
