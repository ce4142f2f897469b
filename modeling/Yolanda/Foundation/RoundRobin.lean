import Mathlib.Data.Int.CardIntervalMod

/-! Turns that go round: who comes next, who has had a turn, and how often. -/

namespace Yolanda.Foundation.RoundRobin

/-- Who has had the first turns, of so many that take them one after the other. -/
def turns (number calls : Nat) : List Nat :=
  (List.range calls).map (· % number)

theorem turns_succ (number calls : Nat) :
    turns number (calls + 1) = turns number calls ++ [calls % number] := by
  rw [turns, List.range_succ, List.map_append]
  rfl

@[simp] theorem length_turns (number calls : Nat) : (turns number calls).length = calls := by
  rw [turns, List.length_map, List.length_range]

theorem getElem?_turns {number calls turn : Nat} (had : turn < calls) :
    (turns number calls)[turn]? = some (turn % number) := by
  rw [turns, List.getElem?_map, List.getElem?_range had]
  rfl

/-- The one behind the last is the first. -/
theorem next_turn {number calls : Nat} (some : 0 < number) :
    (if number ≤ calls % number + 1 then 0 else calls % number + 1) = (calls + 1) % number := by
  have inside := Nat.mod_lt calls some
  have whole : (calls + 1) % number = (calls % number + 1) % number := (Nat.mod_add_mod ..).symm
  rw [whole]
  by_cases last : number ≤ calls % number + 1
  · have ends : calls % number + 1 = number := by omega
    rw [if_pos last, ends, Nat.mod_self]
  · have within : calls % number + 1 < number := by omega
    rw [if_neg last, Nat.mod_eq_of_lt within]

/-- How often somebody had a turn. -/
theorem count_turns {number who : Nat} (calls : Nat) (there : who < number) :
    (turns number calls).count who = calls / number + if who < calls % number then 1 else 0 := by
  have some : 0 < number := by omega
  have same : who % number = who := Nat.mod_eq_of_lt there
  have counted : (turns number calls).count who = calls.count (· ≡ who [MOD number]) := by
    induction calls with
    | zero => rfl
    | succ calls ih =>
      rw [turns_succ, List.count_append, ih, Nat.count_succ, List.count_singleton]
      simp only [beq_iff_eq, Nat.ModEq, same]
  rw [counted, Nat.count_modEq_card calls some, same]

/-- Nobody is more than one turn behind another. -/
theorem count_turns_le {number first second : Nat} (calls : Nat) (one : first < number)
    (other : second < number) :
    (turns number calls).count first ≤ (turns number calls).count second + 1 := by
  rw [count_turns calls one, count_turns calls other]
  split
  · omega
  · omega

end Yolanda.Foundation.RoundRobin
