import Yolanda.Foundation.Lines

/-! Readers of texts: fields up to a separator, lines up to an empty one, and items one behind
the other until nothing is left. -/

namespace Yolanda.Foundation

universe u v
variable {α : Type u}

theorem Headed.length_lt {separator text rest : List α} {lines : List (List α)}
    (headed : Headed separator text lines rest) (single : Borderless separator) :
    lines.length < text.length := by
  have filled : 0 < separator.length := List.length_pos_of_ne_nil single.1
  induction headed with
  | blank rest =>
    rw [List.length_append, List.length_nil]
    omega
  | line _ _ _ ih =>
    rw [List.length_append, List.length_append, List.length_cons]
    omega

/-- What stands behind the lines can be longer. -/
theorem Headed.append {separator text rest : List α} {lines : List (List α)}
    (headed : Headed separator text lines rest) (more : List α) :
    Headed separator (text ++ more) lines (rest ++ more) := by
  induction headed with
  | blank rest =>
    rw [List.append_assoc]
    exact .blank (rest ++ more)
  | @line line text rest lines filled clear _ ih =>
    rw [List.append_assoc]
    exact .line filled clear ih

section Fields

variable [DecidableEq α] {separator text rest : List α}

/-- The text in front of the first separator, and the text behind it. -/
def cut (separator text : List α) : Option (List α × List α) :=
  (search separator text).map fun offset =>
    (text.take offset, text.drop (offset + separator.length))

theorem cut_append {before : List α} (single : Borderless separator)
    (clear : ¬ separator <:+: before) (rest : List α) :
    cut separator (before ++ separator ++ rest) = some (before, rest) := by
  have front : (before ++ separator ++ rest).take before.length = before := by
    rw [List.append_assoc, List.take_left]
  have back : (before ++ separator ++ rest).drop (before.length + separator.length) = rest := by
    rw [← List.length_append, List.drop_left]
  rw [cut, search_append single clear rest, Option.map_some, front, back]

/-- The lines in front of the first empty line, and what is behind that. -/
def readLines (separator : List α) : Nat → List α → Option (List (List α) × List α)
  | 0, _ => none
  | fuel + 1, text =>
    match cut separator text with
    | none => none
    | some (line, rest) =>
      if line = [] then some ([], rest)
      else (readLines separator fuel rest).map fun lines => (line :: lines.1, lines.2)

/-- Lines that a text starts with are read off. -/
theorem Headed.readLines {lines : List (List α)} (headed : Headed separator text lines rest)
    (single : Borderless separator) {fuel : Nat} (enough : lines.length < fuel) :
    readLines separator fuel text = some (lines, rest) := by
  have empty : ¬ separator <:+: [] := by
    intro occurs
    exact single.1 (List.eq_nil_of_infix_nil occurs)
  induction headed generalizing fuel with
  | blank rest =>
    cases fuel with
    | zero => cases enough
    | succ fuel =>
      have found : cut separator (separator ++ rest) = some ([], rest) :=
        cut_append single empty rest
      rw [Foundation.readLines, found]
      rfl
  | @line line text rest lines filled clear _ ih =>
    cases fuel with
    | zero => cases enough
    | succ fuel =>
      have behind := ih (Nat.lt_of_succ_lt_succ enough)
      rw [Foundation.readLines, cut_append single clear text]
      simp only [if_neg filled, behind]
      rfl

end Fields

section Items

variable {β : Type v} {γ : Type u} {read : List α → Option (β × List α)}

/-- All items of a text, if it consists of items. -/
def readAll (read : List α → Option (β × List α)) : Nat → List α → Option (List β)
  | _, [] => some []
  | 0, _ :: _ => none
  | fuel + 1, head :: tail =>
    match read (head :: tail) with
    | none => none
    | some (item, rest) => (readAll read fuel rest).map (item :: ·)

/-- The reader finds the end of the code of the item, whatever is behind it. -/
def Delimits (read : List α → Option (β × List α)) (code : List α) (item : β) : Prop :=
  code ≠ [] ∧ ∀ rest, read (code ++ rest) = some (item, rest)

/-- Delimited codes one behind the other are read as their items. -/
theorem readAll_flatMap {encode : γ → List α} {decode : γ → β} {items : List γ}
    (delimits : ∀ item ∈ items, Delimits read (encode item) (decode item)) {fuel : Nat}
    (enough : items.length ≤ fuel) :
    readAll read fuel (items.flatMap encode) = some (items.map decode) := by
  induction items generalizing fuel with
  | nil =>
    cases fuel with
    | _ => rfl
  | cons item items ih =>
    obtain ⟨filled, reads⟩ := delimits item (List.mem_cons_self ..)
    have others := fun other member => delimits other (List.mem_cons_of_mem item member)
    cases fuel with
    | zero => cases enough
    | succ fuel =>
      have rest := ih others (Nat.le_of_succ_le_succ enough)
      obtain ⟨head, tail, code⟩ := List.exists_cons_of_ne_nil filled
      have first := reads (items.flatMap encode)
      rw [List.flatMap_cons]
      rw [code, List.cons_append] at first ⊢
      rw [readAll, first]
      simp only [rest]
      rfl

theorem length_le_flatMap {encode : γ → List α} {items : List γ}
    (filled : ∀ item ∈ items, encode item ≠ []) :
    items.length ≤ (items.flatMap encode).length := by
  induction items with
  | nil => exact Nat.zero_le _
  | cons item items ih =>
    have first := List.length_pos_of_ne_nil (filled item (List.mem_cons_self ..))
    have rest := ih fun other member => filled other (List.mem_cons_of_mem item member)
    rw [List.flatMap_cons, List.length_append, List.length_cons]
    omega

end Items

end Yolanda.Foundation
