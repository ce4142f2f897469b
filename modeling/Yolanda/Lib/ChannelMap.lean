import Mathlib.Data.List.Nodup
import Mathlib.Logic.Function.Basic
import Mathlib.Tactic.Ring

/-! The table from descriptors to channels of the C library, an array that doubles. -/

namespace Yolanda.Lib

/-- Ways in which a call does not return to its caller. -/
inductive Stop where
  /-- `channel_event_activate` reads the descriptor of the channel of an empty entry. -/
  | emptySlot
  /-- The assertion of `channel_event_activate` fails. -/
  | assertion
  /-- Any other access through a null pointer or outside an object. -/
  | memory
  /-- An overflow of `int`. -/
  | overflow
  /-- A failed `epoll_ctl`, answered by `error(1, errno, ..)`. -/
  | epollCtl
  deriving DecidableEq, Repr

/-- A sequence of two calls returns exactly when both return. -/
theorem bind_eq_ok {first : Except Stop α} {next : α → Except Stop β} :
    (first >>= next) = .ok result ↔ ∃ value, first = .ok value ∧ next value = .ok result := by
  cases first with
  | error stop => exact ⟨nofun, nofun⟩
  | ok value =>
    constructor
    · intro taken
      exact ⟨value, rfl, taken⟩
    · rintro ⟨other, same, taken⟩
      cases same
      exact taken

/-- `struct channel_map`. A channel is known by its number, and `nentries` is the length. -/
structure ChannelMap where
  entries : List (Option Nat)

namespace ChannelMap

def nentries (map : ChannelMap) : Nat :=
  map.entries.length

/-- The loop of `map_make_space` over an `int`, which 32 doublings take out of its range. -/
def doubleUntil (slot : Nat) : Nat → Nat → Except Stop Nat
  | 0, _ => .error .overflow
  | doublings + 1, nentries =>
    if nentries ≤ slot then
      if 2 * nentries < 2 ^ 31 then doubleUntil slot doublings (2 * nentries)
      else .error .overflow
    else .ok nentries

/-- `map_make_space`, where `memory` says whether `realloc` finds the memory. It is called
with the size of a pointer. -/
def makeSpace (map : ChannelMap) (slot : Nat) (memory : Bool) :
    Except Stop (Option ChannelMap) :=
  if map.nentries ≤ slot then do
    let nentries ← doubleUntil slot 32 (if map.nentries ≠ 0 then map.nentries else 32)
    if nentries * 8 < 2 ^ 31 then
      if memory then
        return some ⟨map.entries ++ List.replicate (nentries - map.nentries) none⟩
      else return none
    else throw .overflow
  else return some map

/-- `map->entries[fd]` -/
def read (map : ChannelMap) (fd : Nat) : Except Stop (Option Nat) :=
  match map.entries[fd]? with
  | some entry => .ok entry
  | none => .error .memory

/-- `map->entries[fd] = channel` -/
def write (map : ChannelMap) (fd : Nat) (channel : Option Nat) : ChannelMap :=
  ⟨map.entries.set fd channel⟩

/-- The channel of a descriptor. -/
def lookup (map : ChannelMap) (fd : Nat) : Option Nat :=
  map.entries[fd]?.join

/-- The descriptors that have a channel. -/
def keys (map : ChannelMap) : List Nat :=
  (List.range map.nentries).filter fun fd => (map.lookup fd).isSome

/-- The table has grown from 32 entries by doubling, with no more of them than `int` can
count the bytes of. -/
def Grown (map : ChannelMap) : Prop :=
  map.nentries = 0 ∨ ∃ doublings ≤ 22, map.nentries = 32 * 2 ^ doublings

variable {map : ChannelMap} {fd : Nat}

theorem lookup_of_le (beyond : map.nentries ≤ fd) : map.lookup fd = none := by
  unfold lookup
  rw [List.getElem?_eq_none beyond]
  rfl

theorem lt_of_lookup (found : map.lookup fd ≠ none) : fd < map.nentries := by
  by_contra beyond
  exact found (lookup_of_le (Nat.not_lt.mp beyond))

theorem read_ok (inside : fd < map.nentries) : map.read fd = .ok (map.lookup fd) := by
  unfold read lookup
  rw [List.getElem?_eq_getElem inside]
  rfl

theorem read_error (beyond : map.nentries ≤ fd) : map.read fd = .error .memory := by
  unfold read
  rw [List.getElem?_eq_none beyond]

theorem lookup_write (inside : fd < map.nentries) (channel : Option Nat) :
    (map.write fd channel).lookup = Function.update map.lookup fd channel := by
  funext asked
  unfold lookup write
  by_cases same : asked = fd
  · subst same
    rw [List.getElem?_set_self inside, Function.update_self]
    rfl
  · rw [List.getElem?_set_ne (Ne.symm same), Function.update_of_ne same]

@[simp] theorem nentries_write (map : ChannelMap) (fd : Nat) (channel : Option Nat) :
    (map.write fd channel).nentries = map.nentries :=
  List.length_set

theorem Grown.write (grown : map.Grown) (fd : Nat) (channel : Option Nat) :
    (map.write fd channel).Grown := by
  unfold Grown
  rw [nentries_write]
  exact grown

theorem keys_nodup (map : ChannelMap) : map.keys.Nodup :=
  List.nodup_range.filter _

theorem mem_keys : fd ∈ map.keys ↔ map.lookup fd ≠ none := by
  unfold keys
  rw [List.mem_filter, List.mem_range, Option.isSome_iff_ne_none]
  exact ⟨fun found => found.2, fun found => ⟨lt_of_lookup found, found⟩⟩

/-- The loop ends at the first double behind the slot, or when `int` cannot hold it. -/
theorem doubleUntil_cases {slot doublings base : Nat} (budget : 27 ≤ doublings + base)
    (small : base < 26) :
    (∃ last, base ≤ last ∧ slot < 32 * 2 ^ last ∧ (base = last ∨ 32 * 2 ^ last ≤ 2 * slot) ∧
      doubleUntil slot doublings (32 * 2 ^ base) = .ok (32 * 2 ^ last)) ∨
    2 ^ 30 ≤ slot ∧ doubleUntil slot doublings (32 * 2 ^ base) = .error .overflow := by
  induction doublings generalizing base with
  | zero => omega
  | succ doublings ih =>
    have double : 2 * (32 * 2 ^ base) = 32 * 2 ^ (base + 1) := by ring
    by_cases reached : 32 * 2 ^ base ≤ slot
    · by_cases fits : base + 1 < 26
      · have bound : 32 * 2 ^ (base + 1) < 2 ^ 31 := by
          have power := Nat.pow_lt_pow_right (show 1 < 2 by decide) fits
          omega
        rw [doubleUntil, if_pos reached, double, if_pos bound]
        rcases ih (by omega) fits with ⟨last, later, behind, first, ends⟩ | overflow
        · refine .inl ⟨last, by omega, behind, .inr ?_, ends⟩
          rcases first with rfl | double'
          · omega
          · exact double'
        · exact .inr overflow
      · have last : base = 25 := by omega
        subst last
        rw [doubleUntil, if_pos reached, if_neg (by decide)]
        exact .inr ⟨by omega, rfl⟩
    · refine .inl ⟨base, Nat.le_refl base, Nat.not_le.mp reached, .inl rfl, ?_⟩
      rw [doubleUntil, if_neg reached]

theorem doubleUntil_gt {slot doublings base last : Nat}
    (ends : doubleUntil slot doublings base = .ok last) : slot < last := by
  induction doublings generalizing base with
  | zero => cases ends
  | succ doublings ih =>
    rw [doubleUntil] at ends
    split at ends
    case isTrue =>
      split at ends
      · exact ih ends
      · cases ends
    case isFalse behind =>
      cases ends
      exact Nat.not_le.mp behind

/-- The number of entries the loop starts from. -/
theorem Grown.base (grown : map.Grown) : ∃ base ≤ 22,
    (if map.nentries ≠ 0 then map.nentries else 32) = 32 * 2 ^ base ∧
      map.nentries ≤ 32 * 2 ^ base := by
  rcases grown with empty | ⟨doublings, few, size⟩
  · exact ⟨0, by decide, by rw [if_neg (not_not_intro empty)]; rfl, by omega⟩
  · have positive := Nat.two_pow_pos doublings
    exact ⟨doublings, few, by rw [if_pos (by omega), size], by omega⟩

theorem lookup_append (map : ChannelMap) (more : Nat) :
    (⟨map.entries ++ List.replicate more none⟩ : ChannelMap).lookup = map.lookup := by
  funext fd
  unfold lookup
  by_cases inside : fd < map.entries.length
  · rw [List.getElem?_append_left inside]
  · rw [List.getElem?_append_right (Nat.not_lt.mp inside),
      List.getElem?_eq_none (Nat.not_lt.mp inside), List.getElem?_replicate]
    split <;> rfl

/-- A table with the space has the entries of before. -/
theorem makeSpace_some {memory : Bool} {larger : ChannelMap}
    (made : map.makeSpace fd memory = .ok (some larger)) :
    larger.lookup = map.lookup ∧ map.nentries ≤ larger.nentries ∧ fd < larger.nentries := by
  unfold makeSpace at made
  split at made
  case isTrue =>
    obtain ⟨nentries, ends, made⟩ := bind_eq_ok.mp made
    split at made
    · cases memory with
      | true =>
        cases made
        have behind := doubleUntil_gt ends
        refine ⟨lookup_append map _, ?_, ?_⟩
        · simp only [ChannelMap.nentries, List.length_append]
          omega
        · simp only [ChannelMap.nentries, List.length_append, List.length_replicate]
          omega
      | false => cases made
    · cases made
  case isFalse inside =>
    cases made
    exact ⟨rfl, Nat.le_refl _, Nat.not_le.mp inside⟩

/-- Below `2 ^ 27` the table grows when there is memory, and keeps its entries. -/
theorem makeSpace_ok (grown : map.Grown) (small : fd < 2 ^ 27) (beyond : map.nentries ≤ fd) :
    ∃ larger : ChannelMap, larger.Grown ∧ fd < larger.nentries ∧ larger.lookup = map.lookup ∧
      ∀ memory, map.makeSpace fd memory = .ok (if memory then some larger else none) := by
  obtain ⟨base, few, start, below⟩ := grown.base
  rcases @doubleUntil_cases fd 32 base (by omega) (by omega) with
    ⟨last, later, behind, first, ends⟩ | ⟨large, _⟩
  · have bound : last ≤ 22 := by
      rcases first with rfl | double
      · exact few
      · apply Nat.le_of_lt_succ
        apply (Nat.pow_lt_pow_iff_right (show 1 < 2 by decide)).mp
        omega
    have total : map.nentries + (32 * 2 ^ last - map.nentries) = 32 * 2 ^ last := by omega
    have length : (⟨map.entries ++ List.replicate (32 * 2 ^ last - map.nentries) none⟩ :
        ChannelMap).nentries = 32 * 2 ^ last := by
      rw [nentries, List.length_append, List.length_replicate]
      exact total
    have bytes : 32 * 2 ^ last * 8 < 2 ^ 31 := by
      have power := Nat.pow_le_pow_right (show 0 < 2 by decide) bound
      omega
    refine ⟨_, .inr ⟨last, bound, length⟩, behind.trans_eq length.symm, lookup_append map _, ?_⟩
    intro memory
    rw [makeSpace, if_pos beyond, start, ends]
    cases memory with
    | true => simp only [bind, Except.bind, if_pos bytes]; rfl
    | false => simp only [bind, Except.bind, if_pos bytes]; rfl
  · omega

/-- From `2 ^ 27` on the number of bytes is too large for `int`. -/
theorem makeSpace_overflow (grown : map.Grown) (large : 2 ^ 27 ≤ fd) (memory : Bool) :
    map.makeSpace fd memory = .error .overflow := by
  obtain ⟨base, few, start, below⟩ := grown.base
  have power := Nat.pow_le_pow_right (show 0 < 2 by decide) few
  have beyond : map.nentries ≤ fd := by omega
  rw [makeSpace, if_pos beyond, start]
  rcases @doubleUntil_cases fd 32 base (by omega) (by omega) with
    ⟨last, later, behind, first, ends⟩ | ⟨_, ends⟩
  · have more : 22 < last := by
      apply (Nat.pow_lt_pow_iff_right (show 1 < 2 by decide)).mp
      omega
    have bytes : ¬ 32 * 2 ^ last * 8 < 2 ^ 31 := by
      have larger := Nat.pow_le_pow_right (show 0 < 2 by decide) more
      omega
    rw [ends]
    simp only [bind, Except.bind, if_neg bytes]
    rfl
  · rw [ends]
    rfl

end ChannelMap

end Yolanda.Lib
