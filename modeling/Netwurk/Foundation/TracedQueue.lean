/-
A bounded queue together with everything that was ever inserted and removed.
That the history and the present content agree is part of the value, so what
holds of the insertions is inherited by removals and content without a run of
its own.
-/

import Mathlib.Data.List.Count
import Netwurk.Foundation.BoundedQueue

namespace Netwurk

@[ext] structure TracedQueue (Item : Type) (capacity : Nat) where
  queue : BoundedQueue Item capacity
  pushed : List Item
  popped : List Item
  accounts : pushed = popped ++ queue.items

namespace TracedQueue

variable {Item : Type} {capacity : Nat}

def items (traced : TracedQueue Item capacity) : List Item := traced.queue.items

def empty : TracedQueue Item capacity :=
  { queue := BoundedQueue.empty
    pushed := []
    popped := []
    accounts := rfl }

def filled (items : List Item) (within : items.length ≤ capacity) : TracedQueue Item capacity :=
  { queue := ⟨items, within⟩
    pushed := items
    popped := []
    accounts := rfl }

/-- A queue put together from what was removed and what is left; content within
the bound is kept whole. -/
def ofHistory (capacity : Nat) (popped items : List Item) : TracedQueue Item capacity :=
  { queue := .ofList capacity items
    pushed := popped ++ (BoundedQueue.ofList capacity items).items
    popped := popped
    accounts := rfl }

def push? (traced : TracedQueue Item capacity) (item : Item) :
    Option (TracedQueue Item capacity) :=
  match inserted : traced.queue.push? item with
  | none => none
  | some queue => some
      { queue := queue
        pushed := traced.pushed ++ [item]
        popped := traced.popped
        accounts := by
          rw [(BoundedQueue.push?_eq_some.mp inserted).2, traced.accounts, List.append_assoc] }

def pop? (traced : TracedQueue Item capacity) : Option (Item × TracedQueue Item capacity) :=
  match removed : traced.queue.pop? with
  | none => none
  | some (item, queue) => some
      (item,
        { queue := queue
          pushed := traced.pushed
          popped := traced.popped ++ [item]
          accounts := by
            rw [traced.accounts, BoundedQueue.pop?_eq_some.mp removed, List.append_assoc]
            rfl })

@[simp] theorem empty_items : (empty : TracedQueue Item capacity).items = [] := rfl
@[simp] theorem empty_pushed : (empty : TracedQueue Item capacity).pushed = [] := rfl
@[simp] theorem empty_popped : (empty : TracedQueue Item capacity).popped = [] := rfl

theorem split (traced : TracedQueue Item capacity) :
    traced.pushed = traced.popped ++ traced.items :=
  traced.accounts

theorem mem_pushed_of_mem_items {traced : TracedQueue Item capacity} {item : Item}
    (member : item ∈ traced.items) : item ∈ traced.pushed := by
  rw [traced.split]
  exact List.mem_append_right _ member

theorem mem_pushed_of_mem_popped {traced : TracedQueue Item capacity} {item : Item}
    (member : item ∈ traced.popped) : item ∈ traced.pushed := by
  rw [traced.split]
  exact List.mem_append_left _ member

theorem count_pushed [BEq Item] (traced : TracedQueue Item capacity) (item : Item) :
    traced.pushed.count item = traced.popped.count item + traced.items.count item := by
  rw [traced.split, List.count_append]

theorem push?_spec {traced after : TracedQueue Item capacity} {item : Item}
    (inserted : traced.push? item = some after) :
    after.pushed = traced.pushed ++ [item] ∧ after.popped = traced.popped ∧
      after.items = traced.items ++ [item] := by
  unfold push? at inserted
  split at inserted
  · cases inserted
  · rename_i queue accepted
    cases inserted
    exact ⟨rfl, rfl, (BoundedQueue.push?_eq_some.mp accepted).2⟩

theorem room_of_push? {traced after : TracedQueue Item capacity} {item : Item}
    (inserted : traced.push? item = some after) : traced.items.length < capacity := by
  unfold push? at inserted
  split at inserted
  · cases inserted
  · rename_i queue accepted
    exact (BoundedQueue.push?_eq_some.mp accepted).1

theorem pop?_spec {traced after : TracedQueue Item capacity} {item : Item}
    (removed : traced.pop? = some (item, after)) :
    after.pushed = traced.pushed ∧ after.popped = traced.popped ++ [item] ∧
      traced.items = item :: after.items := by
  unfold pop? at removed
  split at removed
  · cases removed
  · rename_i front queue taken
    cases removed
    exact ⟨rfl, rfl, BoundedQueue.pop?_eq_some.mp taken⟩

theorem exists_push? {traced : TracedQueue Item capacity} (item : Item)
    (room : traced.items.length < capacity) : ∃ after, traced.push? item = some after := by
  obtain ⟨queue, accepted⟩ := BoundedQueue.exists_push? item room
  unfold push?
  split
  · rename_i refused
    rw [accepted] at refused
    cases refused
  · exact ⟨_, rfl⟩

theorem exists_pop? {traced : TracedQueue Item capacity} (present : traced.items ≠ []) :
    ∃ item after, traced.pop? = some (item, after) := by
  obtain ⟨front, queue, taken⟩ := BoundedQueue.exists_pop? present
  unfold pop?
  split
  · rename_i refused
    rw [taken] at refused
    cases refused
  · exact ⟨_, _, rfl⟩

theorem ext_history {traced other : TracedQueue Item capacity}
    (popped : traced.popped = other.popped) (items : traced.items = other.items) :
    traced = other := by
  have queue : traced.queue = other.queue := BoundedQueue.ext items
  refine TracedQueue.ext queue ?_ popped
  rw [traced.accounts, other.accounts, popped, queue]

theorem ofHistory_items (popped : List Item) {items : List Item}
    (within : items.length ≤ capacity) :
    (ofHistory capacity popped items).items = items :=
  BoundedQueue.ofList_items within

theorem ofHistory_push? (popped : List Item) {items : List Item} (item : Item)
    (room : items.length < capacity) :
    (ofHistory capacity popped items).push? item =
      some (ofHistory capacity popped (items ++ [item])) := by
  have within : (items ++ [item]).length ≤ capacity := by
    rw [List.length_append]
    exact room
  have content := ofHistory_items popped (Nat.le_of_lt room)
  obtain ⟨after, accepted⟩ := exists_push? item (content.symm ▸ room)
  obtain ⟨_, samePopped, extended⟩ := push?_spec accepted
  have same : after = ofHistory capacity popped (items ++ [item]) :=
    ext_history samePopped (by rw [extended, content, ofHistory_items popped within])
  rw [accepted, same]

theorem ofHistory_pop? (popped : List Item) {rest : List Item} {item : Item}
    (within : (item :: rest).length ≤ capacity) :
    (ofHistory capacity popped (item :: rest)).pop? =
      some (item, ofHistory capacity (popped ++ [item]) rest) := by
  have content := ofHistory_items popped within
  have present : (ofHistory capacity popped (item :: rest)).items ≠ [] := by
    rw [content]
    exact List.cons_ne_nil _ _
  obtain ⟨front, after, taken⟩ := exists_pop? present
  obtain ⟨_, appended, shape⟩ := pop?_spec taken
  rw [content] at shape
  obtain ⟨sameFront, sameRest⟩ := List.cons.inj shape
  subst sameFront
  have shorter : rest.length ≤ capacity := Nat.le_of_succ_le within
  have same : after = ofHistory capacity (popped ++ [item]) rest :=
    ext_history appended (by rw [← sameRest, ofHistory_items _ shorter])
  rw [taken, same]

end TracedQueue

end Netwurk
