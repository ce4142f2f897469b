import Mathlib.Data.List.Infix

/-! First occurrence of a pattern in a text. A borderless pattern cannot overlap
its own later occurrence, so a separator written after a clear field is found
exactly where it was written. -/

namespace Yolanda.Foundation

universe u
variable {α : Type u} [DecidableEq α]

/-- Offset of the leftmost occurrence of `pattern` in the text. -/
def search (pattern : List α) : List α → Option Nat
  | [] => if pattern = [] then some 0 else none
  | head :: tail =>
    if pattern <+: head :: tail then some 0 else (search pattern tail).map (· + 1)

theorem search_eq_none {pattern text : List α} :
    search pattern text = none ↔ ¬ pattern <:+: text := by
  induction text with
  | nil => simp [search]
  | cons head tail ih =>
    rw [search, List.infix_cons_iff]
    by_cases found : pattern <+: head :: tail
    · simp [found]
    · simp [found, ih]

/-- An offset is reported exactly when the pattern stands there and nowhere before. -/
theorem search_eq_some {pattern text : List α} {offset : Nat} :
    search pattern text = some offset ↔
      offset ≤ text.length ∧ pattern <+: text.drop offset ∧
        ∀ earlier < offset, ¬ pattern <+: text.drop earlier := by
  induction text generalizing offset with
  | nil =>
    by_cases empty : pattern = []
    · simp only [search, empty, ↓reduceIte, Option.some.injEq, List.length_nil, Nat.le_zero]
      constructor
      · rintro rfl; simp
      · exact fun h => h.1.symm
    · simp [search, empty]
  | cons head tail ih =>
    rw [search]
    by_cases found : pattern <+: head :: tail
    · simp only [found, ↓reduceIte, Option.some.injEq]
      constructor
      · rintro rfl; simp [found]
      · rintro ⟨_, _, first⟩
        by_contra later
        exact first 0 (by omega) (by simpa using found)
    · simp only [found, ↓reduceIte, Option.map_eq_some_iff]
      constructor
      · rintro ⟨inner, same, rfl⟩
        obtain ⟨bound, here, first⟩ := ih.mp same
        refine ⟨by simpa using bound, by simpa using here, ?_⟩
        intro earlier before
        cases earlier with
        | zero => simpa using found
        | succ earlier => simpa using first earlier (by omega)
      · rintro ⟨bound, here, first⟩
        cases offset with
        | zero => exact absurd (by simpa using here) found
        | succ offset =>
          refine ⟨offset, ih.mpr ⟨by simpa using bound, by simpa using here, ?_⟩, rfl⟩
          intro earlier before
          simpa using first (earlier + 1) (by omega)

theorem search_fits {pattern text : List α} {offset : Nat}
    (found : search pattern text = some offset) : offset + pattern.length ≤ text.length := by
  obtain ⟨bound, here, _⟩ := search_eq_some.mp found
  have size := here.length_le
  rw [List.length_drop] at size
  omega

/-- The text splits around the reported occurrence. -/
theorem search_split {pattern text : List α} {offset : Nat}
    (found : search pattern text = some offset) :
    text = text.take offset ++ pattern ++ text.drop (offset + pattern.length) := by
  obtain ⟨_, ⟨rest, here⟩, _⟩ := search_eq_some.mp found
  have after : text.drop (offset + pattern.length) = rest := by
    rw [← List.drop_drop, ← here, List.drop_left]
  rw [after, List.append_assoc, here, List.take_append_drop]

/-- No proper suffix of the pattern is also a prefix of it. -/
def Borderless (pattern : List α) : Prop :=
  pattern ≠ [] ∧ ∀ cut < pattern.length, 0 < cut → ¬ pattern.drop cut <+: pattern

instance (pattern : List α) : Decidable (Borderless pattern) :=
  inferInstanceAs (Decidable (_ ∧ _))

omit [DecidableEq α] in
/-- A borderless pattern has no occurrence across the end of a clear field. -/
theorem Borderless.clear_before {pattern before after : List α} (single : Borderless pattern)
    (clear : ¬ pattern <:+: before) {offset : Nat} (early : offset < before.length) :
    ¬ pattern <+: (before ++ pattern ++ after).drop offset := by
  intro here
  rw [List.append_assoc, List.drop_append_of_le_length (by omega)] at here
  have size : (before.drop offset).length = before.length - offset := List.length_drop
  by_cases inside : pattern.length ≤ before.length - offset
  · have prefixed : pattern <+: before.drop offset :=
      List.prefix_of_prefix_length_le here (List.prefix_append _ _) (by omega)
    exact clear (prefixed.isInfix.trans (List.drop_suffix _ _).isInfix)
  · -- the field ends inside the occurrence, so the rest of the pattern starts the next one
    have field : before.drop offset <+: pattern :=
      List.prefix_of_prefix_length_le (List.prefix_append _ _) here (by omega)
    obtain ⟨rest, split⟩ := field
    have tailEq : pattern.drop (before.length - offset) = rest := by
      rw [← split, List.drop_append_of_le_length (by omega), ← size, List.drop_length,
        List.nil_append]
    have border : rest <+: pattern ++ after := by
      rw [← split, List.prefix_append_right_inj, split] at here
      exact here
    have sizes := congrArg List.length split
    rw [List.length_append] at sizes
    refine single.2 (before.length - offset) (by omega) (by omega) ?_
    rw [tailEq]
    exact List.prefix_of_prefix_length_le border (List.prefix_append _ _) (by omega)

/-- A separator after a clear field is found right behind that field. -/
theorem search_append {pattern before : List α} (single : Borderless pattern)
    (clear : ¬ pattern <:+: before) (after : List α) :
    search pattern (before ++ pattern ++ after) = some before.length := by
  refine search_eq_some.mpr ⟨by simp, ?_, fun earlier early => single.clear_before clear early⟩
  rw [List.append_assoc, List.drop_left]
  exact List.prefix_append _ _

/-- What follows a text does not change an occurrence found inside it. -/
theorem search_append_right {pattern text : List α} {offset : Nat}
    (found : search pattern text = some offset) (after : List α) :
    search pattern (text ++ after) = some offset := by
  have fits := search_fits found
  obtain ⟨bound, here, first⟩ := search_eq_some.mp found
  refine search_eq_some.mpr ⟨by simp; omega, ?_, ?_⟩
  · rw [List.drop_append_of_le_length bound]
    exact here.trans (List.prefix_append _ _)
  · intro earlier early occurs
    rw [List.drop_append_of_le_length (by omega)] at occurs
    refine first earlier early
      (List.prefix_of_prefix_length_le occurs (List.prefix_append _ _) ?_)
    rw [List.length_drop]
    omega

/-- The field before the leftmost occurrence of a pattern does not contain it. -/
theorem search_clear {pattern text : List α} {offset : Nat} (single : Borderless pattern)
    (found : search pattern text = some offset) : ¬ pattern <:+: text.take offset := by
  intro occurs
  have split := search_split found
  have positive := List.length_pos_of_ne_nil single.1
  cases inner : search pattern (text.take offset) with
  | none => exact search_eq_none.mp inner occurs
  | some early =>
    have fits := search_fits inner
    have same := search_append_right inner (pattern ++ text.drop (offset + pattern.length))
    rw [← List.append_assoc, ← split, found] at same
    have := Option.some.inj same
    rw [List.length_take] at fits
    omega

omit [DecidableEq α] in
/-- An occurrence does not start in a part without the first cell of the pattern. -/
theorem infix_of_append_foreign {first : α} {pattern before after : List α}
    (foreign : first ∉ before) (occurs : first :: pattern <:+: before ++ after) :
    first :: pattern <:+: after := by
  induction before with
  | nil => exact occurs
  | cons head tail ih =>
    rcases List.infix_cons_iff.mp occurs with here | later
    · have same := (List.cons_prefix_cons.mp here).1
      exact absurd (same ▸ List.mem_cons_self ..) foreign
    · exact ih (fun member => foreign (List.mem_cons_of_mem _ member)) later

omit [DecidableEq α] in
/-- A cell that the pattern does not use keeps its occurrences apart. -/
theorem not_infix_append_cons {pattern before after : List α} {cell : α} (foreign : cell ∉ pattern)
    (left : ¬ pattern <:+: before) (right : ¬ pattern <:+: after) :
    ¬ pattern <:+: before ++ cell :: after := by
  have starts (front : List α) (here : pattern <+: front ++ cell :: after) :
      pattern <+: front := by
    by_cases inside : pattern.length ≤ front.length
    · exact List.prefix_of_prefix_length_le here (List.prefix_append _ _) inside
    · have reached : front ++ [cell] <+: pattern := by
        refine List.prefix_of_prefix_length_le ?_ here (by simp; omega)
        exact ⟨after, by simp⟩
      exact absurd (reached.subset (by simp)) foreign
  induction before with
  | nil =>
    intro occurs
    rcases List.infix_cons_iff.mp occurs with here | later
    · exact left (starts [] here).isInfix
    · exact right later
  | cons head tail ih =>
    intro occurs
    rcases List.infix_cons_iff.mp occurs with here | later
    · exact left (starts (head :: tail) here).isInfix
    · exact ih (fun inner => left (List.infix_cons inner)) later

/-- A single element is found where it stands first. -/
theorem search_singleton {element : α} {text : List α} (member : element ∈ text) :
    search [element] text = some (text.idxOf element) := by
  induction text with
  | nil => cases member
  | cons head tail ih =>
    rw [search, List.idxOf_cons]
    by_cases here : head = element
    · rw [if_pos (by simp [here]), here]
      simp
    · have later : element ∈ tail := by
        rcases List.mem_cons.mp member with first | inner
        · exact absurd first.symm here
        · exact inner
      have other : ¬ [element] <+: head :: tail := by
        simp only [List.cons_prefix_cons, List.nil_prefix, and_true]
        exact Ne.symm here
      rw [if_neg other, ih later, beq_false_of_ne here]
      rfl

/-- An element that is there twice is there once more behind its first place. -/
theorem mem_behind_first {element : α} {text : List α} (twice : 2 ≤ text.count element) :
    element ∈ text ∧ element ∈ text.drop (text.idxOf element + 1) := by
  have member : element ∈ text := List.count_pos_iff.mp (by omega)
  refine ⟨member, ?_⟩
  induction text with
  | nil => cases member
  | cons head tail ih =>
    by_cases here : head = element
    · rw [List.idxOf_cons, here, beq_self_eq_true, cond_true, Nat.zero_add, List.drop_succ_cons,
        List.drop_zero]
      rw [here, List.count_cons_self] at twice
      exact List.count_pos_iff.mp (by omega)
    · rw [List.count_cons_of_ne here] at twice
      rw [List.idxOf_cons, beq_false_of_ne here, cond_false, List.drop_succ_cons]
      exact ih twice (List.count_pos_iff.mp (by omega))

end Yolanda.Foundation
