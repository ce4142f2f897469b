import Mathlib.Data.List.Basic

/-! Windows of a fixed block of cells under overwriting, moving and extending. -/

namespace Yolanda.Foundation

universe u
variable {α : Type u}

/-- The cells from `start` up to but not including `stop`. -/
def window (block : List α) (start stop : Nat) : List α :=
  (block.take stop).drop start

@[simp] theorem window_empty (block : List α) (index : Nat) : window block index index = [] := by
  simp only [window, List.drop_eq_nil_iff, List.length_take]
  omega

theorem length_window {block : List α} {start stop : Nat} (fits : stop ≤ block.length) :
    (window block start stop).length = stop - start := by
  simp only [window, List.length_drop, List.length_take]
  omega

theorem window_append {block : List α} {start middle stop : Nat}
    (lower : start ≤ middle) (upper : middle ≤ stop) (fits : stop ≤ block.length) :
    window block start stop = window block start middle ++ window block middle stop := by
  have split : block.take stop = block.take middle ++ window block middle stop := by
    have whole := (List.take_append_drop middle (block.take stop)).symm
    rwa [List.take_take, Nat.min_eq_left upper] at whole
  have size : (block.take middle).length = middle := by simp; omega
  rw [window, split, List.drop_append_of_le_length (by omega)]
  rfl

/-- Dropping from the front of a window moves its start. -/
theorem window_drop (block : List α) (start stop count : Nat) :
    (window block start stop).drop count = window block (start + count) stop := by
  simp [window, List.drop_drop]

/-- A suffix of the block is a window followed by the cells behind it. -/
theorem drop_eq_window_append {block : List α} {start stop : Nat}
    (lower : start ≤ stop) (fits : stop ≤ block.length) :
    block.drop start = window block start stop ++ block.drop stop := by
  have size : (block.take stop).length = stop := by simp; omega
  conv_lhs => rw [← List.take_append_drop stop block]
  rw [List.drop_append_of_le_length (by omega)]
  rfl

/-- A window is the front part of what follows its start. -/
theorem window_add (block : List α) (start count : Nat) :
    window block start (start + count) = (block.drop start).take count := by
  rw [window, List.drop_take, Nat.add_sub_cancel_left]

/-- Replace the cells from `start` on by `cells`, leaving the others alone. -/
def overwrite (block : List α) (start : Nat) (cells : List α) : List α :=
  block.take start ++ cells ++ block.drop (start + cells.length)

theorem length_overwrite {block cells : List α} {start : Nat}
    (fits : start + cells.length ≤ block.length) :
    (overwrite block start cells).length = block.length := by
  simp only [overwrite, List.length_append, List.length_take, List.length_drop]
  omega

@[simp] theorem overwrite_nil (block : List α) (start : Nat) : overwrite block start [] = block := by
  simp [overwrite]

theorem take_overwrite {block cells : List α} {start : Nat} (inside : start ≤ block.length) :
    (overwrite block start cells).take (start + cells.length) = block.take start ++ cells := by
  have size : (block.take start ++ cells).length = start + cells.length := by simp; omega
  rw [overwrite, ← size, List.take_left]

theorem drop_overwrite {block cells : List α} {start : Nat}
    (fits : start + cells.length ≤ block.length) :
    (overwrite block start cells).drop (start + cells.length) =
      block.drop (start + cells.length) := by
  have size : (block.take start ++ cells).length = start + cells.length := by simp; omega
  rw [overwrite, ← size, List.drop_left]

/-- Overwriting at the end of a window extends that window. -/
theorem window_overwrite {block cells : List α} {start stop : Nat}
    (lower : start ≤ stop) (inside : stop ≤ block.length) :
    window (overwrite block stop cells) start (stop + cells.length) =
      window block start stop ++ cells := by
  have size : (block.take stop).length = stop := by simp; omega
  rw [window, take_overwrite inside, List.drop_append_of_le_length (by omega)]
  rfl

theorem window_extend (block tail : List α) {start stop : Nat} (fits : stop ≤ block.length) :
    window (block ++ tail) start stop = window block start stop := by
  rw [window, List.take_append_of_le_length fits]
  rfl

/-- Copy `count` cells from `source` on to the front of the block, lowest
first and one at a time; `none` when a cell outside the block is read. -/
def copyDown (block : List α) (source : Nat) : Nat → Option (List α)
  | 0 => some block
  | count + 1 => do
    let moved ← copyDown block source count
    let cell ← moved[source + count]?
    return moved.set count cell

/-- The ascending copy never reads a cell it has already replaced, so the whole
window arrives at the front even when source and target overlap. -/
theorem copyDown_eq {block : List α} {source count : Nat} (fits : source + count ≤ block.length) :
    copyDown block source count =
      some (window block source (source + count) ++ block.drop count) := by
  induction count with
  | zero => simp [copyDown]
  | succ count ih =>
    have width : (window block source (source + count)).length = count := by
      rw [length_window (by omega)]; omega
    have unread : (window block source (source + count) ++ block.drop count)[source + count]? =
        some block[source + count] := by
      rw [List.getElem?_append_right (by omega), width, List.getElem?_drop,
        List.getElem?_eq_getElem (by omega)]
      congr 2
      omega
    have next : window block (source + count) (source + (count + 1)) = [block[source + count]] := by
      simp only [window, ← Nat.add_assoc, List.take_add_one, List.getElem?_eq_getElem (show
        source + count < block.length by omega), Option.toList_some]
      rw [List.drop_append_of_le_length (by simp; omega)]
      simp
    have extended : window block source (source + (count + 1)) =
        window block source (source + count) ++ [block[source + count]] := by
      rw [← next]
      exact window_append (by omega) (by omega) fits
    rw [copyDown, ih (by omega)]
    simp only [Option.bind_eq_bind, Option.bind_some, unread, Option.pure_def, extended]
    rw [List.set_append_right _ _ (by omega), width, Nat.sub_self,
      List.drop_eq_getElem_cons (show count < block.length by omega), List.set_cons_zero,
      List.append_assoc, List.singleton_append]

end Yolanda.Foundation
