import Yolanda.Foundation.Block

/-! A block of cells used as a ring: places behind each other, the last in front of the first,
and the cells from one place up to another. -/

namespace Yolanda.Foundation.Ring

universe u
variable {α : Type u}

/-- The place behind a place of a ring of `number` cells. -/
def advance (number place : Nat) : Nat :=
  if place + 1 = number then 0 else place + 1

/-- The cells from `front` up to but not including `rear`. -/
def contents (cells : List α) (front rear : Nat) : List α :=
  if front ≤ rear then window cells front rear else cells.drop front ++ cells.take rear

variable {cells : List α} {front rear : Nat} {value : α}

theorem advance_lt (inside : rear < cells.length) : advance cells.length rear < cells.length := by
  unfold advance
  split
  · omega
  · omega

@[simp] theorem contents_self (cells : List α) (place : Nat) : contents cells place place = [] := by
  rw [contents, if_pos (Nat.le_refl place), window_empty]

/-- How many cells there are between two places. -/
theorem length_contents (first : front < cells.length) (last : rear < cells.length) :
    (contents cells front rear).length + front =
      if front ≤ rear then rear else rear + cells.length := by
  unfold contents
  by_cases ordered : front ≤ rear
  · rw [if_pos ordered, if_pos ordered, length_window (Nat.le_of_lt last)]
    omega
  · rw [if_neg ordered, if_neg ordered, List.length_append, List.length_drop, List.length_take]
    omega

/-- The last place before the first is reached when one cell is left. -/
theorem advance_eq_iff (first : front < cells.length) (last : rear < cells.length) :
    advance cells.length rear = front ↔
      (contents cells front rear).length + 1 = cells.length := by
  have width := length_contents first last
  unfold advance
  split at width
  · split
    · omega
    · omega
  · split
    · omega
    · omega

private theorem take_set (inside : rear < cells.length) :
    (cells.set rear value).take (rear + 1) = cells.take rear ++ [value] := by
  rw [List.set_eq_take_append_cons_drop, if_pos inside]
  have width : (cells.take rear).length = rear := List.length_take_of_le (Nat.le_of_lt inside)
  rw [List.take_append, width, List.take_of_length_le (by omega), Nat.add_sub_cancel_left]
  rfl

/-- A value at the rear is the last one when the ring is not full. -/
theorem contents_push (first : front < cells.length) (last : rear < cells.length)
    (room : (contents cells front rear).length + 1 < cells.length) :
    contents (cells.set rear value) front (advance cells.length rear) =
      contents cells front rear ++ [value] := by
  have apart : advance cells.length rear ≠ front := by
    intro full
    have width := (advance_eq_iff first last).mp full
    omega
  have taken : (cells.set rear value).take (rear + 1) = cells.take rear ++ [value] :=
    take_set last
  unfold advance at apart ⊢
  by_cases ends : rear + 1 = cells.length
  · -- the rear goes round, and the content is the whole end of the block
    rw [if_pos ends] at apart ⊢
    have whole : (cells.set rear value).take (rear + 1) = cells.set rear value :=
      List.take_of_length_le (by rw [List.length_set]; omega)
    have width : (cells.take rear).length = rear := List.length_take_of_le (Nat.le_of_lt last)
    rw [contents, if_neg (by omega), contents, if_pos (by omega), List.take_zero, List.append_nil,
      ← whole, taken, List.drop_append_of_le_length (by omega)]
    rfl
  · rw [if_neg ends] at apart ⊢
    by_cases ordered : front ≤ rear
    · have width : (cells.take rear).length = rear := List.length_take_of_le (Nat.le_of_lt last)
      rw [contents, if_pos (by omega), contents, if_pos ordered, window, taken,
        List.drop_append_of_le_length (by omega)]
      rfl
    · rw [contents, if_neg (by omega), contents, if_neg ordered, taken,
        List.drop_set_of_lt (by omega), List.append_assoc]

/-- A value in a full ring makes it look empty. -/
theorem contents_push_full (first : front < cells.length) (last : rear < cells.length)
    (full : (contents cells front rear).length + 1 = cells.length) :
    contents (cells.set rear value) front (advance cells.length rear) = [] := by
  rw [(advance_eq_iff first last).mpr full, contents_self]

/-- The first value and those behind it. -/
theorem contents_pop (first : front < cells.length) (last : rear < cells.length)
    (filled : front ≠ rear) :
    ∃ value, cells[front]? = some value ∧
      contents cells front rear = value :: contents cells (advance cells.length front) rear := by
  refine ⟨cells[front], List.getElem?_eq_getElem first, ?_⟩
  have head : cells.drop front = cells[front] :: cells.drop (front + 1) :=
    List.drop_eq_getElem_cons first
  unfold advance
  by_cases ordered : front ≤ rear
  · have before : front < (cells.take rear).length := by
      rw [List.length_take]
      omega
    rw [if_neg (by omega), contents, if_pos ordered, contents, if_pos (by omega), window,
      List.drop_eq_getElem_cons before, List.getElem_take]
    rfl
  · rw [contents, if_neg ordered, head]
    by_cases ends : front + 1 = cells.length
    · have nothing : cells.drop (front + 1) = [] := List.drop_of_length_le (by omega)
      rw [if_pos ends, contents, if_pos (Nat.zero_le rear), nothing]
      rfl
    · rw [if_neg ends, contents, if_neg (by omega)]
      rfl

end Yolanda.Foundation.Ring
