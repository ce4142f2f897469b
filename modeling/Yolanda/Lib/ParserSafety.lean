import Yolanda.Lib.ParserStep

/-! Every execution of the loop body of the parser of the C library stays within the readable
bytes and moves on by whole lines. -/

namespace Yolanda.Lib

open Foundation
open App (HttpRequestState space colonSpace crlf)

/-- Bytes are inspected within a range only, and no length is negative. -/
def Access.Confined (first last : Int) : Access → Prop
  | .inspect start count => 0 ≤ count ∧ first ≤ start ∧ start + count ≤ last
  | .allocate size => 0 ≤ size
  | .copy size => 0 ≤ size

instance (first last : Int) (access : Access) : Decidable (access.Confined first last) :=
  match access with
  | .inspect .. => inferInstanceAs (Decidable (_ ∧ _))
  | .allocate _ => inferInstanceAs (Decidable (_ ≤ _))
  | .copy _ => inferInstanceAs (Decidable (_ ≤ _))

namespace Parsing

/-- What an execution of the loop body has kept and done. -/
structure Safe (before after : Parsing) : Prop where
  first : 0 ≤ after.input.readIndex
  ordered : after.input.readIndex ≤ after.input.writeIndex
  stored : after.input.writeIndex ≤ after.input.totalSize
  forward : before.input.readIndex ≤ after.input.readIndex
  confined : ∃ accesses, after.log = before.log ++ accesses ∧ ∀ access ∈ accesses,
    access.Confined before.input.readIndex before.input.writeIndex
  progress : before.input.readIndex + 2 ≤ after.input.readIndex ∨
    after.input = before.input ∧ after.request = before.request

variable {before after : Parsing}

/-- The whole readable bytes are a confined range. -/
private theorem readable_confined (valid : before.input.Valid) :
    (Access.inspect before.input.readIndex (before.input.writeIndex - before.input.readIndex)).Confined
      before.input.readIndex before.input.writeIndex := by
  have ordered := valid.ordered
  exact ⟨by omega, Int.le_refl _, by omega⟩

/-- What is done for a field stays within the line. -/
private theorem field_confined {first last start stop size : Int} (begins : first ≤ start)
    (ends : stop ≤ last) (positive : 0 ≤ size) (fits : start + size ≤ stop) :
    ∀ access ∈ fieldAccesses start stop size, access.Confined first last := by
  intro access member
  simp only [fieldAccesses, List.mem_cons, List.not_mem_nil, or_false] at member
  rcases member with rfl | rfl | rfl | rfl
  · exact ⟨by omega, begins, by omega⟩
  · change 0 ≤ size + 1
    omega
  · exact ⟨positive, begins, by omega⟩
  · exact positive

/-- What is done for a request line stays within it. -/
private theorem line_confined {first last start stop : Int} {methodEnd urlEnd : Nat}
    (begins : first ≤ start) (ends : stop ≤ last)
    (fits : start + methodEnd + 1 + urlEnd + 1 ≤ stop) :
    ∀ access ∈ lineAccesses start stop methodEnd urlEnd, access.Confined first last := by
  intro access member
  rcases List.mem_append.mp member with fields | version
  · rcases List.mem_append.mp fields with method | url
    · exact field_confined begins ends (by omega) (by omega) access method
    · exact field_confined (by omega) ends (by omega) (by omega) access url
  · simp only [List.mem_cons, List.not_mem_nil, or_false] at version
    rcases version with rfl | rfl | rfl
    · change 0 ≤ stop - (start + methodEnd + 1 + urlEnd + 1) + 1
      omega
    · exact ⟨by omega, by omega, by omega⟩
    · change 0 ≤ stop - (start + methodEnd + 1 + urlEnd + 1)
      omega

/-- What is done for a header line stays within it. -/
private theorem header_confined {first last start stop : Int} {colon : Nat} (begins : first ≤ start)
    (ends : stop ≤ last) (fits : start + colon + 2 ≤ stop) :
    ∀ access ∈ headerAccesses start stop colon, access.Confined first last := by
  intro access member
  simp only [headerAccesses, List.mem_cons, List.not_mem_nil, or_false] at member
  rcases member with rfl | rfl | rfl | rfl | rfl | rfl | rfl
  · exact ⟨by omega, begins, by omega⟩
  · change (0 : Int) ≤ colon + 1
    omega
  · exact ⟨by omega, begins, by omega⟩
  · exact Int.natCast_nonneg colon
  · change 0 ≤ stop - (start + colon) - 2 + 1
    omega
  · exact ⟨by omega, by omega, by omega⟩
  · change 0 ≤ stop - (start + colon) - 2
    omega

/-- An execution that moves on within the readable bytes, having inspected no others. -/
private theorem Safe.taken (valid : before.input.Valid) {readIndex : Int} {request : RequestBlocks}
    {accesses : List Access} (forward : before.input.readIndex + 2 ≤ readIndex)
    (inside : readIndex ≤ before.input.writeIndex)
    (confined : ∀ access ∈ accesses,
      access.Confined before.input.readIndex before.input.writeIndex) :
    before.Safe { before.note accesses with input.readIndex := readIndex, request } := by
  obtain ⟨start, ordered, stored, _, _⟩ := valid
  have later : before.input.readIndex ≤ readIndex := by omega
  exact ⟨start.trans later, inside, stored, later, ⟨accesses, rfl, confined⟩, .inl forward⟩

/-- Each kind of execution stays within the readable bytes. -/
theorem Iterated.safe (valid : before.input.Valid) (iterated : Iterated before after) :
    before.Safe after := by
  have whole := readable_confined valid
  have bound : ∀ {lineEnd}, search crlf before.input.contents = some lineEnd →
      before.input.readIndex + lineEnd + 2 ≤ before.input.writeIndex :=
    fun found => (placed_of_found valid found).2.2.1
  obtain ⟨start, ordered, stored, _, _⟩ := id valid
  cases iterated with
  | idle status headers =>
    exact ⟨start, ordered, stored, Int.le_refl _, ⟨[], (List.append_nil _).symm, by simp⟩,
      .inr ⟨rfl, rfl⟩⟩
  | waiting missing =>
    refine ⟨start, ordered, stored, Int.le_refl _, ⟨_, rfl, ?_⟩, .inr ⟨rfl, rfl⟩⟩
    intro access member
    exact List.mem_singleton.mp member ▸ whole
  | @requestLine lineEnd methodEnd urlEnd status found first second =>
    have room := bound found
    have width : (before.input.contents.take lineEnd).length ≤ lineEnd := List.length_take_le ..
    have front := search_fits first
    have back := search_fits second
    have one : space.length = 1 := rfl
    rw [List.length_drop] at back
    refine Safe.taken valid (by omega) room ?_
    intro access member
    rcases List.mem_cons.mp member with rfl | inner
    · exact whole
    · exact line_confined (Int.le_refl _) (by omega) (by omega) access inner
  | @headerLine lineEnd colon headers found parted =>
    have room := bound found
    have width : (before.input.contents.take lineEnd).length ≤ lineEnd := List.length_take_le ..
    have front := search_fits parted
    have two : colonSpace.length = 2 := rfl
    refine Safe.taken valid (by omega) room ?_
    intro access member
    rcases List.mem_cons.mp member with rfl | inner
    · exact whole
    · exact header_confined (Int.le_refl _) (by omega) (by omega) access inner
  | @lastLine lineEnd headers found unparted =>
    have room := bound found
    refine Safe.taken valid (Int.le_refl _) (by omega) ?_
    intro access member
    rcases List.mem_cons.mp member with rfl | inner
    · exact whole
    · rw [List.mem_singleton.mp inner]
      exact ⟨Int.natCast_nonneg lineEnd, Int.le_refl _, by omega⟩

/-- Every execution of the loop body that returns keeps the order of the indices, never goes
back, stays within the readable bytes, and takes a line or leaves everything as it is. -/
theorem iteration_safe (valid : before.input.Valid)
    (success : before.parseIteration = .ok after) : before.Safe after :=
  (parseIteration_cases valid success).safe valid

/-- The first line of a request, as it arrives. -/
def sampleParsing : Parsing :=
  { input := { data := App.ascii "GET / HTTP/1.1\r\n", readIndex := 0, writeIndex := 16, totalSize := 16 }
    request := .new
    log := [] }

theorem iteration_safe_sample : ∃ after, sampleParsing.parseIteration = .ok after ∧
    after.input.readIndex = 16 ∧ sampleParsing.Safe after := by
  have valid : sampleParsing.input.Valid := ⟨by decide, by decide, by decide, by decide, by decide⟩
  exact ⟨_, rfl, rfl, iteration_safe valid rfl⟩

end Parsing

end Yolanda.Lib
