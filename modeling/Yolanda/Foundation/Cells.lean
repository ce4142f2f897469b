import Mathlib.Data.List.Basic

/-! Blocks as an allocator hands them out: what a cell holds is unknown until something is
stored to it, and stores to places outside of the block are kept apart. -/

namespace Yolanda.Foundation

universe u
variable {α : Type u}

/-- An allocated block, with the indices outside of it that were stored to. -/
structure Cells (α : Type u) where
  cells : List (Option α)
  stray : List Int
  deriving DecidableEq

namespace Cells

def allocate (size : Nat) : Cells α :=
  { cells := List.replicate size none, stray := [] }

/-- `block[index] = value` -/
def put (block : Cells α) (index : Int) (value : α) : Cells α :=
  if 0 ≤ index ∧ index.toNat < block.cells.length then
    { block with cells := block.cells.set index.toNat (some value) }
  else { block with stray := block.stray ++ [index] }

/-- Store to one place after the other. -/
def putAll (block : Cells α) (start : Nat) : List α → Cells α
  | [] => block
  | value :: values => (block.put start value).putAll (start + 1) values

/-- The block with other values in its first cells. -/
def withFront (block : Cells α) (values : List α) : Cells α :=
  { block with cells := values.map some ++ block.cells.drop values.length }

/-- What a cell holds, if it was stored to. -/
def get (block : Cells α) (index : Nat) : Option α :=
  block.cells[index]?.join

/-- The values up to the first that stops, with all cells up to there stored to. -/
def upTo (stop : α → Bool) : List (Option α) → Option (List α)
  | [] => none
  | none :: _ => none
  | some value :: rest => if stop value then some [] else (upTo stop rest).map (value :: ·)

/-- All values, when every cell was stored to. -/
def whole (block : Cells α) : Option (List α) :=
  block.cells.mapM id

/-- A block that was stored to from the front. -/
def filled (values : List α) (room : Nat) : Cells α :=
  { cells := values.map some ++ List.replicate room none, stray := [] }

theorem allocate_eq (size : Nat) : (allocate size : Cells α) = filled [] size := rfl

variable {block : Cells α} {index : Nat} {values more : List α} {value : α} {room : Nat}

@[simp] theorem length_put (block : Cells α) (index : Int) (value : α) :
    (block.put index value).cells.length = block.cells.length := by
  unfold put
  split
  · exact List.length_set
  · rfl

/-- A store inside of the block is no stray one. -/
theorem stray_put (inside : index < block.cells.length) (value : α) :
    (block.put index value).stray = block.stray := by
  rw [put, if_pos ⟨Int.natCast_nonneg index, by rwa [Int.toNat_natCast]⟩]

theorem put_outside {place : Int} (outside : place < 0 ∨ block.cells.length ≤ place) (value : α) :
    block.put place value = { block with stray := block.stray ++ [place] } := by
  rw [put, if_neg]
  omega

/-- A cell holds what was last stored to it. -/
theorem get_put (inside : index < block.cells.length) (other : Nat) (value : α) :
    (block.put index value).get other = if index = other then some value else block.get other := by
  rw [put, if_pos ⟨Int.natCast_nonneg index, by rwa [Int.toNat_natCast]⟩, get,
    Int.toNat_natCast, List.getElem?_set]
  by_cases same : index = other
  · rw [if_pos same, if_pos same, if_pos inside]
    rfl
  · rw [if_neg same, if_neg same]
    rfl

theorem put_filled (values : List α) (room : Nat) (value : α) :
    (filled values (room + 1)).put values.length value = filled (values ++ [value]) room := by
  have inside : values.length < (filled values (room + 1)).cells.length := by
    simp only [filled, List.length_append, List.length_map, List.length_replicate]
    omega
  rw [put, if_pos ⟨Int.natCast_nonneg _, by rwa [Int.toNat_natCast]⟩, Int.toNat_natCast]
  simp [filled, List.replicate_succ]

/-- Values that fit are stored behind those that are there. -/
theorem putAll_filled (fits : more.length ≤ room) :
    (filled values room).putAll values.length more =
      filled (values ++ more) (room - more.length) := by
  induction more generalizing values room with
  | nil => rw [putAll, List.append_nil, List.length_nil, Nat.sub_zero]
  | cons value more ih =>
    obtain ⟨less, rfl⟩ : ∃ less, room = less + 1 := ⟨room - 1, by
      rw [List.length_cons] at fits
      omega⟩
    have shorter : more.length ≤ less := by
      rw [List.length_cons] at fits
      omega
    have rest := @ih (values ++ [value]) less shorter
    rw [List.length_append, List.append_assoc] at rest
    rw [putAll, put_filled]
    rw [List.length_cons, Nat.add_sub_add_right]
    exact rest

theorem putAll_append (block : Cells α) (start : Nat) (values more : List α) :
    block.putAll start (values ++ more) =
      (block.putAll start values).putAll (start + values.length) more := by
  induction values generalizing block start with
  | nil => rfl
  | cons value values ih =>
    rw [List.cons_append, putAll, ih, List.length_cons, Nat.add_right_comm]
    rfl

theorem putAll_concat (block : Cells α) (values : List α) (value : α) :
    block.putAll 0 (values ++ [value]) = (block.putAll 0 values).put values.length value := by
  rw [putAll_append, Nat.zero_add]
  rfl

@[simp] theorem length_putAll (block : Cells α) (start : Nat) (values : List α) :
    (block.putAll start values).cells.length = block.cells.length := by
  induction values generalizing block start with
  | nil => rfl
  | cons value values ih => rw [putAll, ih, length_put]

theorem cells_put (inside : index < block.cells.length) (value : α) :
    (block.put index value).cells = block.cells.set index (some value) := by
  rw [put, if_pos ⟨Int.natCast_nonneg index, by rwa [Int.toNat_natCast]⟩, Int.toNat_natCast]

/-- The first of several values finds room, and the others behind it. -/
theorem put_fits {start : Nat} (fits : start + (value :: values).length ≤ block.cells.length) :
    start < block.cells.length ∧
      start + 1 + values.length ≤ (block.put start value).cells.length := by
  rw [List.length_cons] at fits
  rw [length_put]
  omega

/-- Values stored inside of a block replace what was there. -/
theorem cells_putAll {start : Nat} (fits : start + values.length ≤ block.cells.length) :
    (block.putAll start values).cells =
      block.cells.take start ++ values.map some ++ block.cells.drop (start + values.length) := by
  induction values generalizing block start with
  | nil => simp [putAll]
  | cons value values ih =>
    obtain ⟨inside, length⟩ := put_fits fits
    have front : (block.cells.set start (some value)).take (start + 1) =
        block.cells.take start ++ [some value] := by
      rw [List.take_add_one, List.getElem?_set_self inside, List.take_set,
        List.set_eq_of_length_le (List.length_take_le ..)]
      rfl
    have back : start + 1 + values.length = start + (values.length + 1) := by omega
    rw [putAll, ih length, cells_put inside, List.drop_set_of_lt (by omega), front, back,
      List.length_cons, List.map_cons]
    simp

theorem stray_putAll {start : Nat} (fits : start + values.length ≤ block.cells.length) :
    (block.putAll start values).stray = block.stray := by
  induction values generalizing block start with
  | nil => rfl
  | cons value values ih =>
    obtain ⟨inside, length⟩ := put_fits fits
    rw [putAll, ih length, stray_put inside]

/-- A value behind as many as the block has cells is stored outside of it. -/
theorem stray_overrun (full : values.length = block.cells.length) (clean : block.stray = []) :
    (block.putAll 0 (values ++ [value])).stray = [(values.length : Int)] := by
  have inside : 0 + values.length ≤ block.cells.length := by omega
  have outside : (block.putAll 0 values).cells.length ≤ ((0 + values.length : Nat) : Int) := by
    rw [length_putAll]
    omega
  rw [putAll_append, putAll, putAll, put_outside (.inr outside), stray_putAll inside, clean,
    Nat.zero_add]
  rfl

theorem putAll_zero (fits : values.length ≤ block.cells.length) :
    block.putAll 0 values = block.withFront values := by
  have inside : 0 + values.length ≤ block.cells.length := by omega
  have cells := cells_putAll inside
  have stray := stray_putAll inside
  rw [List.take_zero, List.nil_append, Nat.zero_add] at cells
  rw [withFront, ← cells, ← stray]

theorem length_withFront (fits : values.length ≤ block.cells.length) :
    (block.withFront values).cells.length = block.cells.length := by
  rw [withFront, List.length_append, List.length_map, List.length_drop]
  omega

/-- Values without a stop run into a cell that was not stored to. -/
theorem upTo_none {stop : α → Bool} (clean : ∀ value ∈ values, stop value = false) (room : Nat) :
    upTo stop (filled values room).cells = none := by
  unfold filled
  induction values with
  | nil =>
    cases room with
    | zero => rfl
    | succ room => rfl
  | cons first values ih =>
    have inner := ih fun other member => clean other (List.mem_cons_of_mem _ member)
    have here := clean first (List.mem_cons_self ..)
    rw [List.map_cons, List.cons_append, upTo, if_neg (by rw [here]; decide), inner]
    rfl

theorem whole_filled (values : List α) : (filled values 0).whole = some values := by
  unfold whole filled
  rw [List.replicate_zero, List.append_nil]
  induction values with
  | nil => rfl
  | cons value values ih =>
    rw [List.map_cons, List.mapM_cons, ih]
    rfl

/-- A block that is stored to as a whole holds what was stored. -/
theorem whole_putAll {size : Nat} (full : values.length = size) :
    ((allocate size).putAll 0 values).whole = some values := by
  have fills := @putAll_filled α [] values size (Nat.le_of_eq full)
  rw [allocate_eq]
  rw [List.length_nil, List.nil_append, full, Nat.sub_self] at fills
  rw [fills, whole_filled]

end Cells

end Yolanda.Foundation
