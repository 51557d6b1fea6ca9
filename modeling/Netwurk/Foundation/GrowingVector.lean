/-
A vector that only grows, and pointers into it. A push at full capacity moves the
elements to a new block and ends the life of the old one, so a pointer stays good
until the first such push after it was taken. How much larger the new block is
depends on the implementation and is a parameter.
-/

import Mathlib.Data.Nat.Init

namespace Netwurk.GrowingVector

/-- The capacity a full vector of the given size grows to. -/
structure Growth where
  grow : Nat → Nat
  larger : ∀ size, size < grow size

/-- Twice the size, and one for the first element. -/
def doubling : Growth :=
  { grow := fun size => size + max size 1
    larger := by
      intro size
      omega }

def capacityAfter (growth : Growth) : Nat → Nat
  | 0 => 0
  | pushed + 1 =>
      if pushed = capacityAfter growth pushed then growth.grow pushed
      else capacityAfter growth pushed

def blockAfter (growth : Growth) : Nat → Nat
  | 0 => 0
  | pushed + 1 =>
      if pushed = capacityAfter growth pushed then blockAfter growth pushed + 1
      else blockAfter growth pushed

structure Pointer where
  block : Nat
  index : Nat
deriving DecidableEq

structure Vector (growth : Growth) (Value : Type) where
  items : List Value
  capacity : Nat
  block : Nat
  sized : capacity = capacityAfter growth items.length
  moved : block = blockAfter growth items.length
deriving DecidableEq

namespace Vector

variable {growth : Growth} {Value : Type}

def empty : Vector growth Value :=
  { items := []
    capacity := 0
    block := 0
    sized := rfl
    moved := rfl }

def push_back (vector : Vector growth Value) (value : Value) : Vector growth Value :=
  if full : vector.items.length = vector.capacity then
    { items := vector.items ++ [value]
      capacity := growth.grow vector.items.length
      block := vector.block + 1
      sized := by
        rw [List.length_append, List.length_singleton, capacityAfter,
          if_pos (full.trans vector.sized)]
      moved := by
        rw [List.length_append, List.length_singleton, blockAfter,
          if_pos (full.trans vector.sized), vector.moved] }
  else
    { items := vector.items ++ [value]
      capacity := vector.capacity
      block := vector.block
      sized := by
        rw [List.length_append, List.length_singleton, capacityAfter,
          if_neg (vector.sized ▸ full), vector.sized]
      moved := by
        rw [List.length_append, List.length_singleton, blockAfter,
          if_neg (vector.sized ▸ full), vector.moved] }

def back (vector : Vector growth Value) : Pointer :=
  { block := vector.block
    index := vector.items.length - 1 }

/-- Nothing can be read through a pointer to storage that has been replaced. -/
def load (vector : Vector growth Value) (pointer : Pointer) : Option Value :=
  if pointer.block = vector.block then vector.items[pointer.index]? else none

@[simp] theorem items_push_back (vector : Vector growth Value) (value : Value) :
    (vector.push_back value).items = vector.items ++ [value] := by
  unfold push_back
  split <;> rfl

theorem back_eq (vector : Vector growth Value) {index : Nat}
    (size : vector.items.length = index + 1) :
    vector.back = ⟨blockAfter growth (index + 1), index⟩ := by
  unfold back
  rw [vector.moved, size, Nat.add_sub_cancel]

end Vector

variable (growth : Growth)

theorem le_capacityAfter (pushed : Nat) : pushed ≤ capacityAfter growth pushed := by
  induction pushed with
  | zero => exact Nat.zero_le _
  | succ pushed ih =>
      rw [capacityAfter]
      split
      · exact growth.larger pushed
      · omega

theorem block_lifetime {early late : Nat} (order : early ≤ late) :
    (late ≤ capacityAfter growth early →
        blockAfter growth late = blockAfter growth early ∧
          capacityAfter growth late = capacityAfter growth early) ∧
      (capacityAfter growth early < late →
        blockAfter growth early < blockAfter growth late) := by
  induction late, order using Nat.le_induction with
  | base =>
      constructor
      · intro _within
        exact ⟨rfl, rfl⟩
      · intro beyond
        exact absurd (le_capacityAfter growth early) (Nat.not_le_of_lt beyond)
  | succ late order ih =>
      rw [blockAfter, capacityAfter]
      constructor
      · intro within
        have before := ih.1 (Nat.le_of_succ_le within)
        rw [if_neg (by omega), if_neg (by omega)]
        exact before
      · intro beyond
        by_cases within : late ≤ capacityAfter growth early
        · -- the push that exceeds the capacity is the one that moves the elements
          have before := ih.1 within
          rw [if_pos (by omega)]
          omega
        · have before := ih.2 (Nat.lt_of_not_le within)
          split <;> omega

theorem block_lives_iff {early late : Nat} (order : early ≤ late) :
    blockAfter growth early = blockAfter growth late ↔ late ≤ capacityAfter growth early := by
  have lifetime := block_lifetime growth order
  constructor
  · intro same
    apply Nat.le_of_not_lt
    intro beyond
    have older := lifetime.2 beyond
    omega
  · intro within
    exact (lifetime.1 within).1.symm

variable {growth} {Value : Type}

/-- A pointer taken to element `index` when it was the last one still reads that
element exactly while the capacity of that time suffices. -/
theorem Vector.load_iff (vector : Vector growth Value) {index : Nat} {value : Value}
    (present : vector.items[index]? = some value) :
    vector.load ⟨blockAfter growth (index + 1), index⟩ = some value ↔
      vector.items.length ≤ capacityAfter growth (index + 1) := by
  have inside : index + 1 ≤ vector.items.length := by
    obtain ⟨within, _same⟩ := List.getElem?_eq_some_iff.mp present
    exact within
  rw [← block_lives_iff growth inside, ← vector.moved]
  unfold Vector.load
  constructor
  · intro read
    split at read
    · next lives => exact lives
    · cases read
  · intro lives
    rw [if_pos lives]
    exact present

end Netwurk.GrowingVector
