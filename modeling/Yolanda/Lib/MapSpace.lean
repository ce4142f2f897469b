import Mathlib.Tactic.IntervalCases
import Mathlib.Tactic.NormNum
import Yolanda.Foundation.Loop
import Yolanda.Lib.ChannelMap
import Yolanda.Machine

/-! The arithmetic of `map_make_space`: `int`s of 32 bits that wrap, and the loop that doubles
one of them until it is larger than the slot. -/

namespace Yolanda.Lib

open Foundation

/-- `while (nentries <= slot) nentries <<= 1` -/
def doubling (slot : BitVec 32) : Loop (BitVec 32) Unit where
  done nentries := slot.slt nentries
  body nentries := .ok (nentries <<< 1)
  unfinished := ()

/-- The `int`s that `map_make_space` computes: the entries to come, the size it passes to
`realloc` and the size it passes to `memset`. -/
structure Space where
  nentries : BitVec 32
  size : BitVec 32
  cleared : BitVec 32

/-- The number of entries that the loop starts from. -/
def firstEntries (nentries : BitVec 32) : BitVec 32 :=
  if nentries ≠ 0 then nentries else 32

/-- The part of `map_make_space` behind its guard, up to the call of `realloc`. -/
def spaceFor (fuel : Nat) (nentries slot msize : BitVec 32) : Except Unit Space := do
  let doubled ← (doubling slot).run fuel (firstEntries nentries)
  return ⟨doubled, doubled * msize, (doubled - nentries) * msize⟩

theorem spaceFor_ok {fuel : Nat} {nentries slot msize : BitVec 32} {space : Space} :
    spaceFor fuel nentries slot msize = .ok space ↔
      ∃ doubled, (doubling slot).run fuel (firstEntries nentries) = .ok doubled ∧
        space = ⟨doubled, doubled * msize, (doubled - nentries) * msize⟩ := by
  unfold spaceFor
  cases (doubling slot).run fuel (firstEntries nentries) with
  | error => simp
  | ok doubled => simp [pure, Except.pure, eq_comm]

/-- An `int` as the parameter of type `size_t` of `realloc`. -/
def sizeArgument (size : BitVec 32) : Nat :=
  (size.signExtend 64).toNat

/-- Every shift of the loop doubles the value. -/
def ShiftsExact (slot start : BitVec 32) : Prop :=
  ∀ value next, Relation.ReflTransGen (doubling slot).Step start value →
    (doubling slot).Step value next → next.toInt = 2 * value.toInt

/-- The call ends, no `int` on the way overflows, and it asks for the entries it makes, more
of them than the slot, at 8 bytes each. -/
def SpaceSound (nentries slot : BitVec 32) : Prop :=
  ∃ fuel space, spaceFor fuel nentries slot 8 = .ok space ∧
    ShiftsExact slot (firstEntries nentries) ∧
    space.size.toInt = space.nentries.toInt * 8 ∧
    space.cleared.toInt = (space.nentries.toInt - nentries.toInt) * 8 ∧
    (sizeArgument space.size : Int) = 8 * space.nentries.toInt ∧ slot.toInt < space.nentries.toInt

/-- The tables that `map_init`, `map_make_space` and stores to their entries lead to.
`map_clear` leads back to the first. -/
inductive ChannelMap.Produced : ChannelMap → Prop where
  | init : Produced ⟨[]⟩
  | makeSpace (produced : Produced map) (made : map.makeSpace slot memory = .ok (some larger)) :
      Produced larger
  | write (produced : Produced map) : Produced (map.write fd channel)

theorem ChannelMap.Produced.grown {map : ChannelMap} (produced : map.Produced) : map.Grown := by
  induction produced with
  | init => exact .inl rfl
  | @makeSpace map slot memory larger _ made ih =>
    by_cases inside : slot < map.nentries
    · rw [ChannelMap.makeSpace, if_neg (Nat.not_le.mpr inside)] at made
      cases made
      exact ih
    · rcases Nat.lt_or_ge slot (2 ^ 27) with small | large
      · obtain ⟨other, grown, _, _, makes⟩ := map.makeSpace_ok ih small (Nat.not_lt.mp inside)
        rw [makes memory] at made
        cases memory with
        | true =>
          cases made
          exact grown
        | false => cases made
      · rw [ChannelMap.makeSpace_overflow ih large] at made
        cases made
  | write _ ih => exact ih.write _ _

section Ints

variable {value slot : Nat}

theorem toInt_ofNat (small : value < 2 ^ 31) : (BitVec.ofNat 32 value).toInt = value := by
  rw [BitVec.toInt_ofNat']
  exact Int.bmod_eq_of_le (by omega) (by norm_num; omega)

theorem ofNat_mul_eight (value : Nat) : BitVec.ofNat 32 value * 8 = BitVec.ofNat 32 (value * 8) :=
  (BitVec.ofNat_mul value 8).symm

theorem sizeArgument_ofNat (small : value < 2 ^ 31) :
    sizeArgument (BitVec.ofNat 32 value) = value := by
  have same : ((BitVec.ofNat 32 value).signExtend 64).toInt = value := by
    rw [BitVec.toInt_signExtend_of_le (by decide), toInt_ofNat small]
  have wide := BitVec.toInt_eq_toNat_bmod ((BitVec.ofNat 32 value).signExtend 64)
  have bound := ((BitVec.ofNat 32 value).signExtend 64).isLt
  rw [same, Int.bmod_def] at wide
  unfold sizeArgument
  split at wide <;> omega

theorem ofNat_shift (value : Nat) : BitVec.ofNat 32 value <<< 1 = BitVec.ofNat 32 (2 * value) := by
  apply BitVec.eq_of_toNat_eq
  simp [Nat.shiftLeft_eq, Nat.mul_comm]

theorem slt_ofNat (left : slot < 2 ^ 31) (right : value < 2 ^ 31) :
    (BitVec.ofNat 32 slot).slt (BitVec.ofNat 32 value) = decide (slot < value) := by
  rw [BitVec.slt, toInt_ofNat left, toInt_ofNat right]
  simp

theorem doubling_done (int : slot < 2 ^ 31) (small : value < 2 ^ 31) (behind : slot < value) :
    (doubling (BitVec.ofNat 32 slot)).done (BitVec.ofNat 32 value) = true := by
  simp [doubling, slt_ofNat int small, behind]

theorem doubling_step (int : slot < 2 ^ 31) (small : value < 2 ^ 31) (before : value ≤ slot) :
    (doubling (BitVec.ofNat 32 slot)).Step (BitVec.ofNat 32 value)
      (BitVec.ofNat 32 (2 * value)) := by
  constructor
  · simp [doubling, slt_ofNat int small, before]
  · simp [doubling, ofNat_shift]

end Ints

/-- Where the doublings stay in the range of `int` the loop goes through them. -/
theorem doubling_returns {slot doublings value last : Nat} (int : slot < 2 ^ 31)
    (small : value < 2 ^ 31) (ends : ChannelMap.doubleUntil slot doublings value = .ok last) :
    (doubling (BitVec.ofNat 32 slot)).Returns (BitVec.ofNat 32 value) (BitVec.ofNat 32 last) ∧
      ShiftsExact (BitVec.ofNat 32 slot) (BitVec.ofNat 32 value) := by
  induction doublings generalizing value with
  | zero => cases ends
  | succ doublings ih =>
    rw [ChannelMap.doubleUntil] at ends
    split at ends
    case isTrue before =>
      split at ends
      case isTrue fits =>
        have step := doubling_step int small before
        obtain ⟨result, exact⟩ := ih fits ends
        refine ⟨result.of_step step, ?_⟩
        intro reached next chain further
        rcases step.reaches chain with rfl | later
        · rw [← step.unique further, toInt_ofNat fits, toInt_ofNat small]
          norm_num
        · exact exact reached next later further
      case isFalse => cases ends
    case isFalse behind =>
      cases ends
      have exits := doubling_done int small (Nat.not_le.mp behind)
      refine ⟨⟨0, Loop.run_done exits 0⟩, ?_⟩
      intro reached next chain further
      rw [Loop.reaches_done exits chain] at further
      have running := further.1
      rw [exits] at running
      cases running

/-- From a slot of `2 ^ 30` on the value wraps to zero and stays there. -/
theorem doubling_endless {slot base : Nat} (int : slot < 2 ^ 31) (large : 2 ^ 30 ≤ slot)
    (small : base < 26) (final : BitVec 32) :
    ¬ (doubling (BitVec.ofNat 32 slot)).Returns (BitVec.ofNat 32 (32 * 2 ^ base)) final := by
  intro result
  induction steps : 25 - base generalizing base with
  | zero =>
    have last : base = 25 := by omega
    subst last
    have wrapped := result.step (doubling_step int (by norm_num) (by omega))
    have negative : (doubling (BitVec.ofNat 32 slot)).Step (BitVec.ofNat 32 (2 * (32 * 2 ^ 25)))
        (BitVec.ofNat 32 0) := by
      constructor
      · have bottom : (BitVec.ofNat 32 (2 * (32 * 2 ^ 25))).toInt = -2 ^ 31 := by decide
        simp only [doubling, BitVec.slt, toInt_ofNat int, bottom]
        simp only [decide_eq_false_iff_not]
        omega
      · rfl
    have running : (doubling (BitVec.ofNat 32 slot)).done (BitVec.ofNat 32 0) = false := by
      simp [doubling, BitVec.slt, toInt_ofNat int]
    exact Loop.not_returns_of_stuck running rfl (wrapped.step negative)
  | succ steps ih =>
    have power : 32 * 2 ^ base ≤ 32 * 2 ^ 24 :=
      Nat.mul_le_mul_left 32 (Nat.pow_le_pow_right (by decide) (by omega))
    have next := result.step (doubling_step int (by omega) (by omega))
    rw [show 2 * (32 * 2 ^ base) = 32 * 2 ^ (base + 1) by ring] at next
    exact ih (by omega) next (by omega)

/-- The bytes of `2 ^ 28` entries and more are not counted by an `int`. -/
theorem bytes_wrap {last : Nat} (least : 22 < last) (most : last < 27) :
    (BitVec.ofNat 32 (32 * 2 ^ last) * 8).toInt ≠ (BitVec.ofNat 32 (32 * 2 ^ last)).toInt * 8 := by
  interval_cases last <;> decide

theorem firstEntries_eq {nentries : Nat} (small : nentries < 2 ^ 31) :
    firstEntries (BitVec.ofNat 32 nentries) =
      BitVec.ofNat 32 (if nentries ≠ 0 then nentries else 32) := by
  have zero : BitVec.ofNat 32 nentries = 0 ↔ nentries = 0 := by
    rw [← BitVec.toInt_inj, toInt_ofNat small]
    simp
  unfold firstEntries
  by_cases empty : nentries = 0
  · rw [if_neg (not_not_intro (zero.mpr empty)), if_neg (not_not_intro empty)]
    rfl
  · rw [if_pos fun same => empty (zero.mp same), if_pos empty]

namespace ChannelMap

variable {map : ChannelMap} {slot : Nat}

/-- Below `2 ^ 27` everything that is computed is in the range of `int`. -/
theorem spaceSound_of_lt (grown : map.Grown) (small : slot < 2 ^ 27) (beyond : map.nentries ≤ slot) :
    SpaceSound (BitVec.ofNat 32 map.nentries) (BitVec.ofNat 32 slot) := by
  obtain ⟨base, few, start, below⟩ := grown.base
  rcases @doubleUntil_cases slot 32 base (by omega) (by omega) with
    ⟨last, later, behind, first, ends⟩ | ⟨large, _⟩
  · have bound : 32 * 2 ^ last < 2 ^ 28 := by
      rcases first with rfl | double
      · have power := Nat.pow_le_pow_right (show 0 < 2 by decide) few
        omega
      · omega
    have power := Nat.pow_le_pow_right (show 0 < 2 by decide) few
    obtain ⟨⟨fuel, result⟩, exact⟩ := doubling_returns (by omega) (by omega) ends
    have total : 32 * 2 ^ last - map.nentries ≤ 32 * 2 ^ last := Nat.sub_le _ _
    have less : map.nentries ≤ 32 * 2 ^ last := by omega
    refine ⟨fuel, ⟨BitVec.ofNat 32 (32 * 2 ^ last), BitVec.ofNat 32 (32 * 2 ^ last * 8),
      BitVec.ofNat 32 ((32 * 2 ^ last - map.nentries) * 8)⟩, ?_, ?_, ?_, ?_, ?_, ?_⟩
    · refine spaceFor_ok.mpr ⟨BitVec.ofNat 32 (32 * 2 ^ last), ?_, ?_⟩
      · rw [firstEntries_eq (by omega), start]
        exact result
      · rw [ofNat_mul_eight, BitVec.ofNat_sub_ofNat_of_le _ _ (by omega) less, ofNat_mul_eight]
    · rw [firstEntries_eq (by omega), start]
      exact exact
    · rw [toInt_ofNat (by omega), toInt_ofNat (by omega)]
      exact Int.natCast_mul _ _
    · rw [toInt_ofNat (by omega), toInt_ofNat (by omega), toInt_ofNat (by omega)]
      omega
    · rw [sizeArgument_ofNat (by omega), toInt_ofNat (by omega)]
      omega
    · rw [toInt_ofNat (by omega), toInt_ofNat (by omega)]
      omega
  · omega

/-- The table that a growth makes has the entries the wrapping `int`s count. -/
theorem makeSpace_space {larger : ChannelMap} {memory : Bool} (int : slot < 2 ^ 31)
    (grown : map.Grown) (beyond : map.nentries ≤ slot)
    (made : map.makeSpace slot memory = .ok (some larger)) :
    ∃ fuel space, spaceFor fuel (BitVec.ofNat 32 map.nentries) (BitVec.ofNat 32 slot) 8 = .ok space ∧
      space.nentries = BitVec.ofNat 32 larger.nentries := by
  obtain ⟨base, few, start, below⟩ := grown.base
  have power := Nat.pow_le_pow_right (show 0 < 2 by decide) few
  rw [makeSpace, if_pos beyond] at made
  obtain ⟨doubled, ends, made⟩ := bind_eq_ok.mp made
  have behind := doubleUntil_gt ends
  rw [start] at ends
  obtain ⟨⟨fuel, result⟩, _⟩ := doubling_returns int (by omega) ends
  refine ⟨fuel, _, spaceFor_ok.mpr ⟨BitVec.ofNat 32 doubled, ?_, rfl⟩, ?_⟩
  · rw [firstEntries_eq (by omega), start]
    exact result
  · split at made
    · cases memory with
      | true =>
        cases made
        simp only [nentries, List.length_append, List.length_replicate]
        rw [Nat.add_sub_cancel' (show map.entries.length ≤ doubled from beyond.trans behind.le)]
      | false => cases made
    · cases made

/-- From `2 ^ 27` on the number of bytes is no `int`, and from `2 ^ 30` on the loop goes on
forever. -/
theorem not_spaceSound (grown : map.Grown) (int : slot < 2 ^ 31) (large : 2 ^ 27 ≤ slot) :
    ¬ SpaceSound (BitVec.ofNat 32 map.nentries) (BitVec.ofNat 32 slot) := by
  rintro ⟨fuel, space, asked, _, product, _⟩
  obtain ⟨base, few, start, below⟩ := grown.base
  have power := Nat.pow_le_pow_right (show 0 < 2 by decide) few
  obtain ⟨doubled, ends, rfl⟩ := spaceFor_ok.mp asked
  rw [firstEntries_eq (by omega), start] at ends
  rcases @doubleUntil_cases slot 32 base (by omega) (by omega) with
    ⟨last, _, after, first, doubles⟩ | ⟨wide, _⟩
  · have result := (doubling_returns int (by omega) doubles).1
    have same : doubled = BitVec.ofNat 32 (32 * 2 ^ last) := Loop.Returns.unique ⟨fuel, ends⟩ result
    have least : 22 < last := by
      apply (Nat.pow_lt_pow_iff_right (show 1 < 2 by decide)).mp
      omega
    have most : last < 27 := by
      apply (Nat.pow_lt_pow_iff_right (show 1 < 2 by decide)).mp
      omega
    subst same
    exact bytes_wrap least most product
  · exact doubling_endless int wide (by omega) doubled ⟨fuel, ends⟩

end ChannelMap

/-- On a table of its own making, `map_make_space` is total and free of overflows exactly for
the slots below `2 ^ 27`. -/
theorem makeSpace_sound_iff {map : ChannelMap} {slot : Nat} (produced : map.Produced)
    (int : slot < 2 ^ 31) :
    (map.nentries ≤ slot →
      SpaceSound (BitVec.ofNat 32 map.nentries) (BitVec.ofNat 32 slot)) ↔ slot < 2 ^ 27 := by
  constructor
  · intro sound
    by_contra large
    rw [Nat.not_lt] at large
    obtain ⟨base, few, _, below⟩ := produced.grown.base
    have power := Nat.pow_le_pow_right (show 0 < 2 by decide) few
    have beyond : map.nentries ≤ slot := by omega
    exact ChannelMap.not_spaceSound produced.grown int large (sound beyond)
  · intro small beyond
    exact ChannelMap.spaceSound_of_lt produced.grown small beyond

theorem makeSpace_sound_first : SpaceSound 0 1000 :=
  (makeSpace_sound_iff .init (by decide)).mpr (by decide) (Nat.zero_le 1000)

/-- With the slot `2 ^ 27` the number of bytes is taken for a negative one. -/
theorem makeSpace_wraps : ChannelMap.Produced ⟨[]⟩ ∧
    (∃ space, spaceFor 32 0 (BitVec.ofNat 32 (2 ^ 27)) 8 = .ok space ∧ space.nentries.toInt = 2 ^ 28 ∧
      space.size.toInt = -2 ^ 31) ∧
    ¬ SpaceSound 0 (BitVec.ofNat 32 (2 ^ 27)) := by
  have wraps : spaceFor 32 0 (BitVec.ofNat 32 (2 ^ 27)) 8 =
      .ok ⟨BitVec.ofNat 32 (2 ^ 28), BitVec.ofNat 32 (2 ^ 31), BitVec.ofNat 32 (2 ^ 31)⟩ := by rfl
  have grown : ChannelMap.Grown ⟨[]⟩ := .inl rfl
  exact ⟨.init, ⟨_, wraps, by decide, by decide⟩,
    ChannelMap.not_spaceSound grown (by decide) (Nat.le_refl _)⟩

end Yolanda.Lib
