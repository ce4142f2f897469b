import Yolanda.Foundation.Run

/-! A store used as a queue, with the account of what went into it and came out of it, and
two facts that such an account carries over a run: nothing is lost, and the storage is paid
for by the largest content. -/

namespace Yolanda.Foundation

universe u v
variable {Store : Type u} {α : Type v}

/-- A store, all that was put into it and taken out of it so far, and the size of its
largest content. -/
structure Ledger (Store : Type u) (α : Type v) where
  store : Store
  supplied : List α
  consumed : List α
  peak : Nat

namespace Ledger

/-- The account of a store nothing has happened to. -/
def begin (contents : Store → List α) (store : Store) : Ledger Store α :=
  { store, supplied := contents store, consumed := [], peak := (contents store).length }

/-- The account after a call that put `supplied` into the store and took `consumed` out. -/
def record (contents : Store → List α) (ledger : Ledger Store α) (store : Store)
    (supplied consumed : List α) : Ledger Store α :=
  { store
    supplied := ledger.supplied ++ supplied
    consumed := ledger.consumed ++ consumed
    peak := max ledger.peak (contents store).length }

variable {contents : Store → List α} {capacity : Store → Nat} {limit : Nat}
variable {ledger : Ledger Store α} {store : Store} {supplied consumed : List α}

/-- The store holds, in order, what was put into it and not yet taken out. -/
structure Balanced (contents : Store → List α) (ledger : Ledger Store α) : Prop where
  whole : ledger.supplied = ledger.consumed ++ contents ledger.store
  peak : (contents ledger.store).length ≤ ledger.peak

theorem begin_balanced (contents : Store → List α) (store : Store) :
    (begin contents store).Balanced contents :=
  ⟨rfl, Nat.le_refl _⟩

/-- A call that moves elements through the store keeps the balance. -/
theorem Balanced.record (balanced : ledger.Balanced contents)
    (moved : contents ledger.store ++ supplied = consumed ++ contents store) :
    (ledger.record contents store supplied consumed).Balanced contents := by
  constructor
  · change ledger.supplied ++ supplied = ledger.consumed ++ consumed ++ contents store
    rw [balanced.whole, List.append_assoc, List.append_assoc, moved]
  · exact Nat.le_max_right ..

/-- The storage is at most the limit or twice the largest content. -/
def Economical (limit : Nat) (capacity : Store → Nat) (ledger : Ledger Store α) : Prop :=
  capacity ledger.store ≤ max limit (2 * ledger.peak)

/-- A store that grows to at most twice its new content stays economical. -/
theorem Economical.record (economical : ledger.Economical limit capacity)
    (grows : capacity store ≤ capacity ledger.store ∨
      capacity store ≤ 2 * (contents store).length) :
    (ledger.record contents store supplied consumed).Economical limit capacity := by
  have higher : ledger.peak ≤ max ledger.peak (contents store).length := Nat.le_max_left ..
  have content : (contents store).length ≤ max ledger.peak (contents store).length :=
    Nat.le_max_right ..
  change capacity store ≤ max limit (2 * max ledger.peak (contents store).length)
  rcases grows with kept | fits
  · have before : capacity ledger.store ≤ max limit (2 * ledger.peak) := economical
    omega
  · omega

end Ledger

end Yolanda.Foundation
