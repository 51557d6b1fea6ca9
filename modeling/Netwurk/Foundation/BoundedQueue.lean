/-
A first-in first-out queue that never holds more than its capacity. Insertion
is refused exactly while the queue is full and removal exactly while it is
empty; both are atomic here, so this is what a blocking buffer is for, with no
statement about how its callers wait.
-/

import Netwurk.Foundation.Transition

namespace Netwurk

/-- The bound is part of the value: an overfull queue cannot be built. -/
@[ext] structure BoundedQueue (Item : Type) (capacity : Nat) where
  items : List Item
  bounded : items.length ≤ capacity
deriving DecidableEq

namespace BoundedQueue

variable {Item : Type} {capacity : Nat}

def empty : BoundedQueue Item capacity :=
  { items := []
    bounded := Nat.zero_le capacity }

/-- Keeps the first `capacity` items; a list within the bound is kept whole. -/
def ofList (capacity : Nat) (items : List Item) : BoundedQueue Item capacity :=
  { items := items.take capacity
    bounded := List.length_take_le capacity items }

def push? (queue : BoundedQueue Item capacity) (item : Item) :
    Option (BoundedQueue Item capacity) :=
  if room : queue.items.length < capacity then
    some
      { items := queue.items ++ [item]
        bounded := by
          rw [List.length_append]
          exact room }
  else none

def pop? (queue : BoundedQueue Item capacity) :
    Option (Item × BoundedQueue Item capacity) :=
  match present : queue.items with
  | [] => none
  | item :: rest => some
      (item,
        { items := rest
          bounded := by
            have bounded := queue.bounded
            rw [present, List.length_cons] at bounded
            omega })

@[simp] theorem empty_items : (empty : BoundedQueue Item capacity).items = [] := rfl

theorem ofList_items {items : List Item} (within : items.length ≤ capacity) :
    (ofList capacity items).items = items :=
  List.take_of_length_le within

theorem push?_eq_some {queue after : BoundedQueue Item capacity} {item : Item} :
    queue.push? item = some after ↔
      queue.items.length < capacity ∧ after.items = queue.items ++ [item] := by
  unfold push?
  by_cases room : queue.items.length < capacity
  · rw [dif_pos room, Option.some.injEq]
    constructor
    · intro same
      subst after
      exact ⟨room, rfl⟩
    · intro both
      obtain ⟨_, same⟩ := both
      exact BoundedQueue.ext same.symm
  · rw [dif_neg room]
    constructor
    · intro impossible
      cases impossible
    · intro both
      obtain ⟨available, _⟩ := both
      exact absurd available room

theorem pop?_eq_some {queue after : BoundedQueue Item capacity} {item : Item} :
    queue.pop? = some (item, after) ↔ queue.items = item :: after.items := by
  unfold pop?
  split
  · rename_i absent
    simp [absent]
  · rename_i head rest present
    rw [Option.some.injEq, Prod.mk.injEq]
    constructor
    · intro both
      obtain ⟨rfl, rfl⟩ := both
      exact present
    · intro shape
      obtain ⟨sameHead, sameRest⟩ := List.cons.inj (present.symm.trans shape)
      exact ⟨sameHead, BoundedQueue.ext sameRest⟩

theorem push?_eq_none {queue : BoundedQueue Item capacity} {item : Item} :
    queue.push? item = none ↔ queue.items.length = capacity := by
  have bounded := queue.bounded
  unfold push?
  by_cases room : queue.items.length < capacity
  · rw [dif_pos room]
    constructor
    · intro impossible
      cases impossible
    · intro full
      omega
  · rw [dif_neg room]
    constructor
    · intro _
      omega
    · intro _
      rfl

theorem pop?_eq_none {queue : BoundedQueue Item capacity} :
    queue.pop? = none ↔ queue.items = [] := by
  unfold pop?
  split
  · rename_i absent
    simp [absent]
  · rename_i present
    simp [present]

theorem exists_push? {queue : BoundedQueue Item capacity} (item : Item)
    (room : queue.items.length < capacity) : ∃ after, queue.push? item = some after := by
  cases pushed : queue.push? item with
  | some after => exact ⟨after, rfl⟩
  | none =>
      have full := push?_eq_none.mp pushed
      omega

theorem exists_pop? {queue : BoundedQueue Item capacity} (present : queue.items ≠ []) :
    ∃ item after, queue.pop? = some (item, after) := by
  cases popped : queue.pop? with
  | some result => exact ⟨result.1, result.2, rfl⟩
  | none => exact absurd (pop?_eq_none.mp popped) present

/-! ### The queue as a system of atomic operations -/

inductive Action (Item : Type) where
  | push (item : Item)
  | pop (item : Item)

def atomic (Item : Type) [DecidableEq Item] (capacity : Nat) :
    Transition.System (BoundedQueue Item capacity) (Action Item) :=
  { start := fun queue => queue = empty
    next := fun queue action =>
      match action with
      | .push item => queue.push? item
      | .pop item =>
          match queue.pop? with
          | none => none
          | some (front, after) => if front = item then some after else none }

end BoundedQueue

end Netwurk
