import Mathlib.Data.List.Basic

/-! A stream as its receiver gets it: cut into pieces, with interrupted and failed attempts in
between. -/

namespace Yolanda.Foundation

universe u
variable {α : Type u}

/-- What the next attempt to receive meets. A piece is not empty. -/
inductive Delivery (α : Type u) where
  | piece (first : α) (more : List α)
  | interrupted
  | failed
  deriving DecidableEq

/-- What an attempt to receive gets. No items stand for the end of the stream. -/
inductive Received (α : Type u) where
  | items (items : List α)
  | interrupted
  | failed

/-- The items that an attempt gets. -/
def Received.list : Received α → List α
  | .items got => got
  | .interrupted => []
  | .failed => []

/-- What all attempts to come meet. After that the stream has ended. -/
abbrev Source (α : Type u) := List (Delivery α)

namespace Source

/-- What is left of a piece is a piece, unless nothing is left. -/
def putBack : List α → Source α → Source α
  | [], source => source
  | first :: more, source => .piece first more :: source

/-- Receive at most `size` items. -/
def receive (size : Nat) : Source α → Received α × Source α
  | [] => (.items [], [])
  | .piece first more :: source =>
    (.items ((first :: more).take size), putBack ((first :: more).drop size) source)
  | .interrupted :: source => (.interrupted, source)
  | .failed :: source => (.failed, source)

/-- The items that are received before the stream ends or fails. -/
def stream : Source α → List α
  | [] => []
  | .piece first more :: source => first :: more ++ stream source
  | .interrupted :: source => stream source
  | .failed :: _ => []

/-- The items that are received before an attempt gets none. -/
def heard : Source α → List α
  | .piece first more :: source => first :: more ++ heard source
  | [] => []
  | .interrupted :: _ => []
  | .failed :: _ => []

/-- Receiving fails before the stream ends. -/
def fails : Source α → Bool
  | [] => false
  | .piece _ _ :: source => fails source
  | .interrupted :: source => fails source
  | .failed :: _ => true

/-- The number of attempts that the stream is good for. -/
def attempts : Source α → Nat
  | [] => 0
  | .piece _ more :: source => more.length + 1 + attempts source
  | .interrupted :: source => attempts source + 1
  | .failed :: source => attempts source + 1

theorem stream_putBack (items : List α) (source : Source α) :
    (putBack items source).stream = items ++ source.stream := by
  cases items with
  | nil => rfl
  | cons first more => rfl

theorem heard_putBack (items : List α) (source : Source α) :
    (putBack items source).heard = items ++ source.heard := by
  cases items with
  | nil => rfl
  | cons first more => rfl

theorem fails_putBack (items : List α) (source : Source α) :
    (putBack items source).fails = source.fails := by
  cases items with
  | nil => rfl
  | cons first more => rfl

theorem attempts_putBack (items : List α) (source : Source α) :
    (putBack items source).attempts = items.length + source.attempts := by
  cases items with
  | nil => rw [putBack, List.length_nil, Nat.zero_add]
  | cons first more => rfl

/-- No piece is larger than one attempt. -/
def Within (size : Nat) (source : Source α) : Prop :=
  ∀ first more, .piece first more ∈ source → more.length < size

/-- No piece goes on behind the mark. -/
def EndsAt (mark : α) (source : Source α) : Prop :=
  ∀ first more, .piece first more ∈ source → mark ∉ (first :: more).dropLast

/-- What an attempt gets, and what it leaves. -/
inductive Receipt (size : Nat) (source rest : Source α) : Received α → Prop where
  | ended (before : source = []) (after : rest = []) : Receipt size source rest (.items [])
  | items (some : items ≠ []) (fits : items.length ≤ size)
      (split : source.stream = items ++ rest.stream) (same : rest.fails = source.fails)
      (fewer : rest.attempts + items.length ≤ source.attempts) :
      Receipt size source rest (.items items)
  | interrupted (kept : rest.stream = source.stream) (same : rest.fails = source.fails)
      (fewer : rest.attempts < source.attempts) : Receipt size source rest .interrupted
  | failed (empty : source.stream = []) (fault : source.fails = true)
      (fewer : rest.attempts < source.attempts) : Receipt size source rest .failed

theorem receive_receipt {size : Nat} (positive : 0 < size) (source : Source α) :
    Receipt size source (source.receive size).2 (source.receive size).1 := by
  cases source with
  | nil => exact .ended rfl rfl
  | cons next source =>
    cases next with
    | piece first more =>
      obtain ⟨less, rfl⟩ : ∃ less, size = less + 1 := ⟨size - 1, by omega⟩
      apply Receipt.items
      · rw [List.take_succ_cons]
        exact List.cons_ne_nil _ _
      · exact List.length_take_le ..
      · rw [receive, stream_putBack, ← List.append_assoc, List.take_append_drop]
        rfl
      · exact fails_putBack _ source
      · rw [receive, attempts_putBack, attempts, List.length_drop, List.length_take,
          List.length_cons]
        omega
    | interrupted => exact .interrupted rfl rfl (Nat.lt_succ_self _)
    | failed => exact .failed rfl rfl (Nat.lt_succ_self _)

theorem heard_of_none {size : Nat} (positive : 0 < size) {source : Source α}
    (none' : (source.receive size).1.list = []) : source.heard = [] := by
  cases source with
  | nil => rfl
  | cons next source =>
    cases next with
    | piece first more =>
      obtain ⟨less, rfl⟩ : ∃ less, size = less + 1 := ⟨size - 1, by omega⟩
      cases none'
    | interrupted => rfl
    | failed => rfl

theorem heard_of_some {size : Nat} {source : Source α}
    (some : (source.receive size).1.list ≠ []) :
    source.heard = (source.receive size).1.list ++ (source.receive size).2.heard := by
  cases source with
  | nil => exact absurd rfl some
  | cons next source =>
    cases next with
    | piece first more =>
      rw [receive, heard_putBack, Received.list, ← List.append_assoc, List.take_append_drop]
      rfl
    | interrupted => exact absurd rfl some
    | failed => exact absurd rfl some

/-- An attempt gets a piece as a whole, if none is larger. -/
theorem receive_within {size : Nat} {source : Source α} (within : source.Within size) (mark : α) :
    (source.receive size).2.Within size ∧
      (source.EndsAt mark ↔
        mark ∉ (source.receive size).1.list.dropLast ∧ (source.receive size).2.EndsAt mark) := by
  cases source with
  | nil => simp [receive, Within, EndsAt, Received.list]
  | cons next source =>
    have later : Within size source := fun first more member =>
      within first more (List.mem_cons_of_mem _ member)
    cases next with
    | piece first more =>
      have whole : (first :: more).length ≤ size := within first more (List.mem_cons_self ..)
      rw [receive, List.take_of_length_le whole, List.drop_of_length_le whole]
      refine ⟨later, ?_⟩
      simp only [EndsAt, List.mem_cons, Delivery.piece.injEq, putBack, Received.list]
      constructor
      · intro ends
        exact ⟨ends first more (.inl ⟨rfl, rfl⟩), fun other rest member =>
          ends other rest (.inr member)⟩
      · rintro ⟨here, ends⟩ other rest (⟨rfl, rfl⟩ | member)
        · exact here
        · exact ends other rest member
    | interrupted => simpa [receive, EndsAt, Received.list] using later
    | failed => simpa [receive, EndsAt, Received.list] using later

/-- Without the mark no piece goes on behind it. -/
theorem endsAt_of_not_mem {mark : α} {source : Source α} (sound : source.fails = false)
    (clear : mark ∉ source.stream) : source.EndsAt mark := by
  induction source with
  | nil => simp [EndsAt]
  | cons next source ih =>
    cases next with
    | piece first more =>
      rw [stream, List.mem_append, not_or] at clear
      have later := ih sound clear.2
      intro other rest member
      rcases List.mem_cons.mp member with same | member
      · cases same
        exact fun within => clear.1 (List.dropLast_subset _ within)
      · exact later other rest member
    | interrupted =>
      have later := ih sound clear
      intro other rest member
      rcases List.mem_cons.mp member with same | member
      · cases same
      · exact later other rest member
    | failed => cases sound

end Source

end Yolanda.Foundation
