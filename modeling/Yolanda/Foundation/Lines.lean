import Mathlib.Data.List.Infix
import Yolanda.Foundation.Search

/-! Texts that start with lines, each ended by a separator, and an empty line behind them.
With a borderless separator the lines can be read off in one way only. -/

namespace Yolanda.Foundation

universe u
variable {α : Type u}

/-- The text is these lines, an empty line and the rest. -/
inductive Headed (separator : List α) : List α → List (List α) → List α → Prop where
  | blank (rest : List α) : Headed separator (separator ++ rest) [] rest
  | line {line text rest : List α} {lines : List (List α)} (filled : line ≠ [])
      (clear : ¬ separator <:+: line) (others : Headed separator text lines rest) :
      Headed separator (line ++ separator ++ text) (line :: lines) rest

/-- Lines that are filled and clear, written out with the empty line behind them. -/
theorem Headed.of_lines {separator : List α} {lines : List (List α)}
    (proper : ∀ line ∈ lines, line ≠ [] ∧ ¬ separator <:+: line) (rest : List α) :
    Headed separator (lines.flatMap (fun line => line ++ separator) ++ (separator ++ rest))
      lines rest := by
  induction lines with
  | nil => exact .blank rest
  | cons line lines ih =>
    obtain ⟨filled, clear⟩ := proper line (List.mem_cons_self ..)
    have others := ih fun other member => proper other (List.mem_cons_of_mem _ member)
    rw [List.flatMap_cons, List.append_assoc]
    exact .line filled clear others

variable [DecidableEq α]

/-- Two fields in front of the first separator are the same field. -/
theorem clear_split_unique {separator before other after rest : List α}
    (single : Borderless separator) (clear : ¬ separator <:+: before)
    (otherClear : ¬ separator <:+: other)
    (same : before ++ separator ++ after = other ++ separator ++ rest) :
    before = other ∧ after = rest := by
  have here := search_append single clear after
  have there := search_append single otherClear rest
  rw [same, there] at here
  have length := (Option.some.inj here).symm
  rw [List.append_assoc, List.append_assoc] at same
  obtain ⟨front, back⟩ := List.append_inj same length
  exact ⟨front, List.append_cancel_left back⟩

/-- The parts in front of the first mark and behind it are determined. -/
theorem first_mark_unique {mark : α} {before other after rest : List α} (clear : mark ∉ before)
    (otherClear : mark ∉ other) (same : before ++ mark :: after = other ++ mark :: rest) :
    before = other ∧ after = rest := by
  have single : Borderless [mark] := by
    refine ⟨List.cons_ne_nil _ _, fun cut short positive => ?_⟩
    rw [List.length_singleton] at short
    omega
  rw [← List.singleton_infix_iff] at clear otherClear
  rw [List.append_cons, List.append_cons other] at same
  exact clear_split_unique single clear otherClear same

omit [DecidableEq α] in
/-- A part that reaches over the place of a mark has it. -/
theorem mem_of_longer {mark : α} {before other after rest : List α}
    (longer : before.length < other.length) (same : other ++ rest = before ++ mark :: after) :
    mark ∈ other := by
  have found := congrArg (fun cells : List α => cells[before.length]?) same
  rw [List.getElem?_append_left longer, List.getElem?_append_right (Nat.le_refl _),
    Nat.sub_self] at found
  exact List.mem_of_getElem? found

theorem Headed.unique {separator text first second : List α} {lines others : List (List α)}
    (single : Borderless separator) (one : Headed separator text lines first)
    (two : Headed separator text others second) : lines = others ∧ first = second := by
  have empty : ¬ separator <:+: [] := by
    intro occurs
    exact single.1 (List.eq_nil_of_infix_nil occurs)
  induction one generalizing others with
  | blank rest =>
    generalize text : separator ++ rest = whole at two
    cases two with
    | blank other => exact ⟨rfl, List.append_cancel_left text⟩
    | line filled clear _ =>
      exact absurd (clear_split_unique single empty clear text).1.symm filled
  | @line line behind rest lines filled clear _ ih =>
    generalize text : line ++ separator ++ behind = whole at two
    cases two with
    | blank other => exact absurd (clear_split_unique single clear empty text).1 filled
    | line _ otherClear rest =>
      obtain ⟨same, follows⟩ := clear_split_unique single clear otherClear text
      subst same
      subst follows
      obtain ⟨lines, rest⟩ := ih rest
      exact ⟨congrArg _ lines, rest⟩

end Yolanda.Foundation
