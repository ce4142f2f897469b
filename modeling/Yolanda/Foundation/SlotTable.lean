import Mathlib.Data.List.Nodup
import Mathlib.Logic.Function.Basic

/-! Arrays of slots that are searched from the front, and the partial map such an array
stands for. -/

namespace Yolanda.Foundation

universe u v w
variable {Slot : Type u} {Key : Type v} {Value : Type w}
variable {fits : Slot → Bool} {change : Slot → Slot} {slots before after : List Slot}

/-- Change the first slot that fits, if there is one. -/
def modifyFirst (fits : Slot → Bool) (change : Slot → Slot) : List Slot → List Slot
  | [] => []
  | slot :: slots =>
    if fits slot then change slot :: slots else slot :: modifyFirst fits change slots

@[simp] theorem length_modifyFirst (fits : Slot → Bool) (change : Slot → Slot) (slots : List Slot) :
    (modifyFirst fits change slots).length = slots.length := by
  induction slots with
  | nil => rfl
  | cons slot slots ih =>
    by_cases found : fits slot = true
    · simp [modifyFirst, found]
    · simp [modifyFirst, found, ih]

theorem modifyFirst_of_none (none : ∀ slot ∈ slots, ¬ fits slot = true) :
    modifyFirst fits change slots = slots := by
  induction slots with
  | nil => rfl
  | cons slot slots ih =>
    have rest := ih fun other member => none other (List.mem_cons_of_mem _ member)
    rw [modifyFirst, if_neg (none slot (List.mem_cons_self ..)), rest]

theorem modifyFirst_append (none : ∀ slot ∈ before, ¬ fits slot = true) {slot : Slot}
    (found : fits slot = true) : modifyFirst fits change (before ++ slot :: after) =
      before ++ change slot :: after := by
  induction before with
  | nil => rw [List.nil_append, modifyFirst, if_pos found, List.nil_append]
  | cons other before ih =>
    have rest := ih fun other member => none other (List.mem_cons_of_mem _ member)
    rw [List.cons_append, modifyFirst, if_neg (none other (List.mem_cons_self ..)), rest,
      List.cons_append]

theorem map_modifyFirst {read : Slot → Key} (keeps : ∀ slot, read (change slot) = read slot)
    (slots : List Slot) : (modifyFirst fits change slots).map read = slots.map read := by
  induction slots with
  | nil => rfl
  | cons slot slots ih =>
    by_cases found : fits slot = true
    · simp only [modifyFirst, if_pos found, List.map_cons, keeps]
    · simp only [modifyFirst, if_neg found, List.map_cons, ih]

/-- A slot that does not fit stays in its place. -/
theorem getElem?_modifyFirst {slot : Slot} {index : Nat} (found : slots[index]? = some slot)
    (unfit : ¬ fits slot = true) : (modifyFirst fits change slots)[index]? = some slot := by
  induction slots generalizing index with
  | nil => cases found
  | cons first slots ih =>
    cases index with
    | zero =>
      cases found
      rw [modifyFirst, if_neg unfit, List.getElem?_cons_zero]
    | succ index =>
      rw [List.getElem?_cons_succ] at found
      by_cases fit : fits first = true
      · rw [modifyFirst, if_pos fit, List.getElem?_cons_succ, found]
      · rw [modifyFirst, if_neg fit, List.getElem?_cons_succ, ih found]

/-- A place holds what it held, or is the first that fits and holds the change. -/
theorem getElem?_modifyFirst_cases {slot : Slot} {index : Nat}
    (found : (modifyFirst fits change slots)[index]? = some slot) :
    slots[index]? = some slot ∨ ∃ old, slots[index]? = some old ∧ fits old = true ∧
      slot = change old ∧
      ∀ earlier other, earlier < index → slots[earlier]? = some other → ¬ fits other = true := by
  induction slots generalizing index with
  | nil => cases found
  | cons first slots ih =>
    by_cases fit : fits first = true
    · rw [modifyFirst, if_pos fit] at found
      cases index with
      | zero =>
        cases found
        exact .inr ⟨first, rfl, fit, rfl, fun earlier _ before => absurd before (Nat.not_lt_zero _)⟩
      | succ index => exact .inl found
    · rw [modifyFirst, if_neg fit] at found
      cases index with
      | zero => exact .inl found
      | succ index =>
        rcases ih found with same | ⟨old, held, fits', changed, none⟩
        · exact .inl same
        · refine .inr ⟨old, held, fits', changed, ?_⟩
          intro earlier other before place
          cases earlier with
          | zero =>
            cases place
            exact fit
          | succ earlier => exact none earlier other (Nat.lt_of_succ_lt_succ before) place

/-- The first slot that fits splits the array. -/
theorem exists_first (some : ∃ slot ∈ slots, fits slot = true) :
    ∃ before slot after, slots = before ++ slot :: after ∧
      (∀ other ∈ before, ¬ fits other = true) ∧ fits slot = true := by
  induction slots with
  | nil =>
    obtain ⟨slot, member, _⟩ := some
    cases member
  | cons slot slots ih =>
    by_cases found : fits slot = true
    · exact ⟨[], slot, slots, rfl, nofun, found⟩
    · obtain ⟨other, member, later⟩ := some
      rcases List.mem_cons.mp member with rfl | behind
      · exact absurd later found
      · obtain ⟨before, first, after, rfl, none, holds⟩ := ih ⟨other, behind, later⟩
        refine ⟨slot :: before, first, after, rfl, ?_, holds⟩
        intro earlier place
        rcases List.mem_cons.mp place with rfl | inner
        · exact found
        · exact none earlier inner

/-- No other slot has the key of a slot. -/
theorem key_alone {key : Slot → Option Key} {slot : Slot} {wanted : Key}
    (single : ((before ++ slot :: after).filterMap key).Nodup) (held : key slot = some wanted) :
    ∀ other ∈ before ++ after, key other ≠ some wanted := by
  intro other member same
  rw [List.filterMap_append, List.filterMap_cons_some held] at single
  have fresh := (List.nodup_middle.mp single).notMem
  rw [← List.filterMap_append] at fresh
  exact fresh (List.mem_filterMap.mpr ⟨other, member, same⟩)

theorem filterMap_modifyFirst {key : Slot → Option Key}
    (keeps : ∀ slot, key (change slot) = key slot) (slots : List Slot) :
    (modifyFirst fits change slots).filterMap key = slots.filterMap key := by
  induction slots with
  | nil => rfl
  | cons slot slots ih =>
    by_cases found : fits slot = true
    · simp only [modifyFirst, if_pos found, List.filterMap_cons, keeps]
    · simp only [modifyFirst, if_neg found, List.filterMap_cons, ih]

/-- The array holds every key of the partial map in one slot, and no other keys. A slot
without a key is free. -/
structure Tabulates (key : Slot → Option Key) (value : Slot → Value) (slots : List Slot)
    (table : Key → Option Value) : Prop where
  single : (slots.filterMap key).Nodup
  reads : ∀ wanted found, table wanted = some found ↔
    ∃ slot ∈ slots, key slot = some wanted ∧ value slot = found

namespace Tabulates

variable {key : Slot → Option Key} {value : Slot → Value} {table : Key → Option Value}
variable {slot : Slot} {wanted : Key}

theorem empty (free : ∀ slot ∈ slots, key slot = none) :
    Tabulates key value slots fun _ => none := by
  constructor
  · rw [List.filterMap_eq_nil_iff.mpr free]
    exact List.nodup_nil
  · intro wanted found
    constructor
    · exact nofun
    · intro ⟨slot, member, held, _⟩
      rw [free slot member] at held
      cases held

/-- What changes neither key nor value of a slot changes nothing of the map. -/
theorem map {change : Slot → Slot} (tabled : Tabulates key value slots table)
    (keeps : ∀ slot, key (change slot) = key slot ∧ value (change slot) = value slot) :
    Tabulates key value (slots.map change) table := by
  constructor
  · have same : key ∘ change = key := funext fun slot => (keeps slot).1
    rw [List.filterMap_map, same]
    exact tabled.single
  · intro wanted found
    simp only [tabled.reads wanted found, List.mem_map, exists_exists_and_eq_and, keeps]

/-- A slot with the key makes the map defined there. -/
theorem ne_none (tabled : Tabulates key value slots table) (member : slot ∈ slots)
    (held : key slot = some wanted) : table wanted ≠ none := by
  have read := (tabled.reads wanted (value slot)).mpr ⟨slot, member, held, rfl⟩
  rw [read]
  exact nofun

theorem exists_slot (tabled : Tabulates key value slots table) (defined : table wanted ≠ none) :
    ∃ slot ∈ slots, key slot = some wanted := by
  obtain ⟨found, read⟩ := Option.ne_none_iff_exists'.mp defined
  obtain ⟨slot, member, held, _⟩ := (tabled.reads wanted found).mp read
  exact ⟨slot, member, held⟩

/-- No other slot has the key of a slot. -/
theorem alone (tabled : Tabulates key value (before ++ slot :: after) table)
    (held : key slot = some wanted) : ∀ other ∈ before ++ after, key other ≠ some wanted :=
  key_alone tabled.single held

variable [DecidableEq Key]

/-- Slots with different keys stand for a partial map. -/
theorem of_nodup (single : (slots.filterMap key).Nodup) :
    Tabulates key value slots fun wanted =>
      (slots.find? fun slot => key slot = some wanted).map value := by
  refine ⟨single, ?_⟩
  intro wanted found
  rw [Option.map_eq_some_iff]
  constructor
  · rintro ⟨slot, first, rfl⟩
    have held := List.find?_some first
    exact ⟨slot, List.mem_of_find?_eq_some first, by simpa using held, rfl⟩
  · rintro ⟨slot, member, held, rfl⟩
    cases first : slots.find? fun slot => key slot = some wanted with
    | none =>
      have absent := List.find?_eq_none.mp first slot member
      exact absurd (decide_eq_true held) absent
    | some other =>
      have same : key other = some wanted := by simpa using List.find?_some first
      obtain ⟨before, after, rfl⟩ := List.append_of_mem member
      have place := List.mem_of_find?_eq_some first
      refine ⟨other, rfl, ?_⟩
      by_contra differ
      apply key_alone single held other ?_ same
      simp only [List.mem_append, List.mem_cons] at place ⊢
      rcases place with inFront | rfl | behind
      · exact .inl inFront
      · exact absurd rfl differ
      · exact .inr behind

/-- To replace a slot that is free or has a key, by one that is free or has this key, changes
the map only there. -/
theorem replace (new : Slot) (tabled : Tabulates key value (before ++ slot :: after) table)
    (others : ∀ other ∈ before ++ after, key other ≠ some wanted)
    (old : ∀ held, key slot = some held → held = wanted)
    (later : ∀ held, key new = some held → held = wanted) :
    Tabulates key value (before ++ new :: after)
      (Function.update table wanted ((key new).map fun _ => value new)) := by
  have rest : ((before ++ after).filterMap key).Nodup := by
    have fewer := List.Sublist.append_left (List.sublist_cons_self slot after) before
    exact List.Nodup.sublist (fewer.filterMap key) tabled.single
  have split (changed : Slot) (property : Slot → Prop) :
      (∃ slot ∈ before ++ changed :: after, property slot) ↔
        property changed ∨ ∃ slot ∈ before ++ after, property slot := by
    simp only [List.mem_append, List.mem_cons]
    constructor
    · rintro ⟨other, inFront | rfl | behind, holds⟩
      · exact .inr ⟨other, .inl inFront, holds⟩
      · exact .inl holds
      · exact .inr ⟨other, .inr behind, holds⟩
    · rintro (holds | ⟨other, inFront | behind, holds⟩)
      · exact ⟨changed, .inr (.inl rfl), holds⟩
      · exact ⟨other, .inl inFront, holds⟩
      · exact ⟨other, .inr (.inr behind), holds⟩
  constructor
  · cases held : key new with
    | none => rwa [List.filterMap_append, List.filterMap_cons_none held, ← List.filterMap_append]
    | some given =>
      cases later given held
      rw [List.filterMap_append, List.filterMap_cons_some held]
      apply List.nodup_middle.mpr
      rw [← List.filterMap_append]
      refine List.nodup_cons.mpr ⟨?_, rest⟩
      intro member
      obtain ⟨other, inside, same⟩ := List.mem_filterMap.mp member
      exact others other inside same
  · intro asked found
    rw [split new]
    by_cases same : asked = wanted
    · subst same
      rw [Function.update_self, Option.map_eq_some_iff]
      constructor
      · rintro ⟨held, given, rfl⟩
        exact .inl ⟨later held given ▸ given, rfl⟩
      · rintro (⟨held, rfl⟩ | ⟨other, inside, held, _⟩)
        · exact ⟨asked, held, rfl⟩
        · exact absurd held (others other inside)
    · rw [Function.update_of_ne same, tabled.reads asked found, split slot]
      constructor
      · rintro (⟨held, _⟩ | elsewhere)
        · exact absurd (old asked held) same
        · exact .inr elsewhere
      · rintro (⟨held, _⟩ | elsewhere)
        · exact absurd (later asked held) same
        · exact .inr elsewhere

/-- The first free slot takes a new key. -/
theorem fill {given : Value} (tabled : Tabulates key value slots table)
    (free : ∀ slot, fits slot = true ↔ key slot = none) (fresh : table wanted = none)
    (holds : ∀ slot, key (change slot) = some wanted ∧ value (change slot) = given)
    (room : ∃ slot ∈ slots, key slot = none) :
    Tabulates key value (modifyFirst fits change slots)
      (Function.update table wanted (some given)) := by
  have fitting : ∃ slot ∈ slots, fits slot = true := by simpa only [free] using room
  obtain ⟨before, slot, after, rfl, none, first⟩ := exists_first fitting
  have unused := (free slot).mp first
  have others : ∀ other ∈ before ++ after, key other ≠ some wanted := by
    intro other member held
    apply tabled.ne_none ?_ held fresh
    rcases List.mem_append.mp member with inFront | behind
    · exact List.mem_append_left _ inFront
    · exact List.mem_append_right _ (List.mem_cons_of_mem _ behind)
  obtain ⟨held, same⟩ := holds slot
  rw [modifyFirst_append none first]
  have filled := tabled.replace (change slot) others (by rw [unused]; exact nofun)
    (by rw [held]; exact fun _ equal => (Option.some.inj equal).symm)
  rwa [held, Option.map_some, same] at filled

omit [DecidableEq Key] in
/-- The first free slot changes and stays free. -/
theorem refill (tabled : Tabulates key value slots table)
    (free : ∀ slot, fits slot = true ↔ key slot = none)
    (unkeyed : ∀ slot, key (change slot) = none) :
    Tabulates key value (modifyFirst fits change slots) table := by
  by_cases room : ∃ slot ∈ slots, fits slot = true
  · obtain ⟨before, slot, after, rfl, none, first⟩ := exists_first room
    have unused := (free slot).mp first
    have changed := unkeyed slot
    rw [modifyFirst_append none first]
    constructor
    · rw [List.filterMap_append, List.filterMap_cons_none changed,
        ← List.filterMap_cons_none (l := after) unused, ← List.filterMap_append]
      exact tabled.single
    · intro wanted found
      rw [tabled.reads wanted found]
      simp [unused, changed, or_and_right, exists_or]
  · rwa [modifyFirst_of_none fun slot member fit => room ⟨slot, member, fit⟩]

/-- The slot with a key gives it up. -/
theorem clear (tabled : Tabulates key value slots table)
    (named : ∀ slot, fits slot = true ↔ key slot = some wanted)
    (freed : ∀ slot, key (change slot) = none) :
    Tabulates key value (modifyFirst fits change slots) (Function.update table wanted none) := by
  by_cases found : ∃ slot ∈ slots, fits slot = true
  · obtain ⟨before, slot, after, rfl, none, first⟩ := exists_first found
    have held := (named slot).mp first
    rw [modifyFirst_append none first]
    have cleared := tabled.replace (change slot) (tabled.alone held)
      (by rw [held]; exact fun _ equal => (Option.some.inj equal).symm)
      (by rw [freed]; exact nofun)
    rwa [freed, Option.map_none] at cleared
  · have absent : table wanted = none := by
      by_contra defined
      obtain ⟨slot, member, held⟩ := tabled.exists_slot defined
      exact found ⟨slot, member, (named slot).mpr held⟩
    rw [modifyFirst_of_none fun slot member fit => found ⟨slot, member, fit⟩, ← absent,
      Function.update_eq_self]
    exact tabled

/-- The slot with a key takes a new value. -/
theorem retune {given : Value} (tabled : Tabulates key value slots table)
    (named : ∀ slot, fits slot = true ↔ key slot = some wanted)
    (keeps : ∀ slot, key (change slot) = key slot ∧ value (change slot) = given)
    (defined : table wanted ≠ none) :
    Tabulates key value (modifyFirst fits change slots)
      (Function.update table wanted (some given)) := by
  obtain ⟨candidate, member, has⟩ := tabled.exists_slot defined
  obtain ⟨before, slot, after, rfl, none, first⟩ :=
    exists_first ⟨candidate, member, (named candidate).mpr has⟩
  have held := (named slot).mp first
  obtain ⟨kept, same⟩ := keeps slot
  rw [modifyFirst_append none first]
  have retuned := tabled.replace (change slot) (tabled.alone held)
    (by rw [held]; exact fun _ equal => (Option.some.inj equal).symm)
    (by rw [kept, held]; exact fun _ equal => (Option.some.inj equal).symm)
  rwa [kept, held, Option.map_some, same] at retuned

omit [DecidableEq Key] in
/-- The keys in the slots are those of the map. -/
theorem keys_perm {keys : List Key} (tabled : Tabulates key value slots table)
    (distinct : keys.Nodup) (domain : ∀ wanted, wanted ∈ keys ↔ table wanted ≠ none) :
    (slots.filterMap key).Perm keys := by
  apply (List.perm_ext_iff_of_nodup tabled.single distinct).mpr
  intro wanted
  rw [domain wanted, List.mem_filterMap]
  constructor
  · intro ⟨slot, member, held⟩
    exact tabled.ne_none member held
  · exact tabled.exists_slot

omit [DecidableEq Key] in
theorem length_keys_le {keys : List Key} (tabled : Tabulates key value slots table)
    (distinct : keys.Nodup) (domain : ∀ wanted, wanted ∈ keys ↔ table wanted ≠ none) :
    keys.length ≤ slots.length := by
  rw [← (tabled.keys_perm distinct domain).length_eq]
  exact List.length_filterMap_le key slots

omit [DecidableEq Key] in
/-- There is a free slot as long as the map has fewer keys than there are slots. -/
theorem room_iff {keys : List Key} (tabled : Tabulates key value slots table)
    (distinct : keys.Nodup) (domain : ∀ wanted, wanted ∈ keys ↔ table wanted ≠ none) :
    (∃ slot ∈ slots, key slot = none) ↔ keys.length < slots.length := by
  rw [← (tabled.keys_perm distinct domain).length_eq]
  have le := List.length_filterMap_le key slots
  constructor
  · intro ⟨slot, member, free⟩
    apply Nat.lt_of_le_of_ne le
    intro full
    have every := List.filterMap_length_eq_length.mp full
    have held := every slot member
    rw [free] at held
    cases held
  · intro fewer
    by_contra full
    apply Nat.ne_of_lt fewer
    apply List.filterMap_length_eq_length.mpr
    intro slot member
    by_contra unheld
    exact full ⟨slot, member, Option.not_isSome_iff_eq_none.mp unheld⟩

end Tabulates

end Yolanda.Foundation
