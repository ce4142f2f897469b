import Mathlib.Algebra.Group.Int.Defs
import Mathlib.Algebra.Group.Nat.Defs
import Mathlib.Data.List.Basic

/-! The part of the C and C++ machine the sources rely on: bytes, the two integer
conversions that matter, and the ways in which a call can fail to return. -/

namespace Yolanda

abbrev Byte := UInt8

abbrev Bytes := List Byte

/-- Ways in which a call does not return to its caller. -/
inductive Fault where
  /-- A failed `assert`, which aborts the process. -/
  | assertion
  /-- An access outside the object it is made to. -/
  | memory
  /-- A failed `epoll_ctl`, answered by `error(1, errno, ..)`. -/
  | epollCtl
  /-- A member function of `event_loop` called on another object. -/
  | notEventLoop
  /-- A loop evaluated with too little fuel. -/
  | unfinished
  deriving DecidableEq, Repr

section Bind

variable {Stop : Type}

@[simp] theorem ok_bind (value : α) (next : α → Except Stop β) :
    (Except.ok value >>= next) = next value := rfl

@[simp] theorem error_bind (stop : Stop) (next : α → Except Stop β) :
    ((Except.error stop : Except Stop α) >>= next) = .error stop := rfl

/-- A sequence of two calls is what the second makes of a first that returns. -/
theorem bind_of_ok {first : Except Stop α} {value : α} (success : first = .ok value)
    (next : α → Except Stop β) : (first >>= next) = next value := by
  rw [success, ok_bind]

/-- A sequence of two calls fails where one of them does. -/
theorem bind_eq_error {first : Except Stop α} {next : α → Except Stop β} {stop : Stop} :
    (first >>= next) = .error stop ↔
      first = .error stop ∨ ∃ value, first = .ok value ∧ next value = .error stop := by
  cases first with
  | error other => simp
  | ok value => simp

end Bind

/-- A sequence of two calls returns exactly when both return. -/
theorem bind_eq_ok {first : Except Fault α} {next : α → Except Fault β} :
    (first >>= next) = .ok result ↔ ∃ value, first = .ok value ∧ next value = .ok result := by
  cases first with
  | error fault => simp
  | ok value => simp

/-- Subtraction of `size_t` values: it wraps below zero. -/
def sizeSub (left right : Nat) : Nat :=
  if right ≤ left then left - right else left + 2 ^ 64 - right

@[simp] theorem sizeSub_of_le {left right : Nat} (le : right ≤ left) :
    sizeSub left right = left - right := by
  simp [sizeSub, le]

/-- Addition of an `int` to a `size_t`: it wraps below zero. -/
def sizeAddInt (base : Nat) (offset : Int) : Nat :=
  if 0 ≤ base + offset then (base + offset).toNat else (base + offset + 2 ^ 64).toNat

@[simp] theorem sizeAddInt_ofNat (base offset : Nat) : sizeAddInt base offset = base + offset := by
  have positive : 0 ≤ (base : Int) + offset := by omega
  rw [sizeAddInt, if_pos positive]
  omega

/-- Conversion of a `size_t` to `int` keeps the low 32 bits, in two's complement. -/
def intOfSize (size : Nat) : Int :=
  Int.bmod size (2 ^ 32)

theorem intOfSize_of_lt {size : Nat} (small : size < 2 ^ 31) : intOfSize size = size := by
  have half : ((2 ^ 32 : Nat) : Int) / 2 = 2 ^ 31 := by decide
  have odd : (((2 ^ 32 : Nat) : Int) + 1) / 2 = 2 ^ 31 := by decide
  unfold intOfSize
  exact Int.bmod_eq_of_le (by rw [half]; omega) (by rw [odd]; omega)

@[simp] theorem intOfSize_zero : intOfSize 0 = 0 :=
  intOfSize_of_lt (Nat.two_pow_pos 31)

/-- The `int` is the size less a number of wraps. -/
theorem intOfSize_wraps (size : Nat) :
    ∃ wraps : Nat, (size : Int) = 2 ^ 32 * wraps + intOfSize size ∧
      -2 ^ 31 ≤ intOfSize size ∧ intOfSize size < 2 ^ 31 := by
  have value : ((2 ^ 32 : Nat) : Int) = 4294967296 := rfl
  unfold intOfSize
  rw [Int.bmod_def, value]
  split
  · exact ⟨size / 4294967296, by omega, by omega, by omega⟩
  · exact ⟨size / 4294967296 + 1, by omega, by omega, by omega⟩

theorem intOfSize_of_ge {size : Nat} (large : 2 ^ 31 ≤ size) (small : size < 2 ^ 32) :
    intOfSize size = size - 2 ^ 32 := by
  have rest : (size : Int) % ((2 ^ 32 : Nat) : Int) = size :=
    Int.emod_eq_of_lt (by omega) (by omega)
  unfold intOfSize
  rw [Int.bmod_def, rest, if_neg (by omega)]
  rfl

/-- Conversion of an `int` to `size_t` wraps negative values to the top. -/
def sizeOfInt (value : Int) : Nat :=
  (value % 2 ^ 64).toNat

theorem sizeOfInt_ofNat {size : Nat} (small : size < 2 ^ 64) : sizeOfInt size = size := by
  have same : (size : Int) % 2 ^ 64 = size := Int.emod_eq_of_lt (by omega) (by omega)
  unfold sizeOfInt
  omega

/-- The `size_t` that a function returns for -1 is -1 again as an `int`. -/
theorem intOfSize_sizeOfInt_minus : intOfSize (sizeOfInt (-1)) = -1 := by decide

/-- Conversion of an `int` to `unsigned int`. -/
def uintOfInt (value : Int) : Nat :=
  (value % 2 ^ 32).toNat

theorem uintOfInt_ofNat {size : Nat} (small : size < 2 ^ 32) : uintOfInt size = size := by
  have same : (size : Int) % 2 ^ 32 = size := Int.emod_eq_of_lt (by omega) (by omega)
  unfold uintOfInt
  omega

/-- A `size_t` passed as `int` and taken back as `size_t` is unchanged below `2 ^ 31`. -/
theorem sizeOfInt_intOfSize {size : Nat} (small : size < 2 ^ 31) :
    sizeOfInt (intOfSize size) = size := by
  rw [intOfSize_of_lt small]
  exact sizeOfInt_ofNat (by omega)

/-- Between `2 ^ 31` and `2 ^ 32` the value that is taken back is larger. -/
theorem sizeOfInt_intOfSize_of_le {size : Nat} (small : size < 2 ^ 32)
    (kept : sizeOfInt (intOfSize size) ≤ size) : sizeOfInt (intOfSize size) = size := by
  rcases Nat.lt_or_ge size (2 ^ 31) with low | high
  · exact sizeOfInt_intOfSize low
  · have negative := intOfSize_of_ge high small
    have wrapped : ((size : Int) - 2 ^ 32) % 2 ^ 64 = size - 2 ^ 32 + 2 ^ 64 := by
      rw [← Int.add_emod_right]
      exact Int.emod_eq_of_lt (by omega) (by omega)
    rw [negative] at kept
    unfold sizeOfInt at kept
    omega

end Yolanda
