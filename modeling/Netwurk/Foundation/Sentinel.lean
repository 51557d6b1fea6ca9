/-
Sequences closed by in-band end marks: data first, then nothing but marks. The
form is kept by taking from the front, and once a mark has been taken only marks
are left.
-/

import Mathlib.Data.List.Count

namespace Netwurk

variable {Item : Type}

/-- `marks` end marks follow the data. -/
def Sealed (mark : Item) (marks : Nat) (items : List Item) : Prop :=
  ∃ data, mark ∉ data ∧ items = data ++ List.replicate marks mark

namespace Sealed

variable {mark : Item} {marks : Nat} {items front back : List Item}

theorem nil (mark : Item) : Sealed mark 0 [] :=
  ⟨[], List.not_mem_nil, rfl⟩

theorem of_data (absent : mark ∉ items) : Sealed mark 0 items :=
  ⟨items, absent, (List.append_nil items).symm⟩

theorem data_of_zero (closed : Sealed mark 0 items) : mark ∉ items := by
  obtain ⟨data, absent, rfl⟩ := closed
  rw [List.replicate_zero, List.append_nil]
  exact absent

theorem push_data (closed : Sealed mark 0 items) {item : Item} (data : item ≠ mark) :
    Sealed mark 0 (items ++ [item]) := by
  apply of_data
  intro member
  rcases List.mem_append.mp member with before | last
  · exact closed.data_of_zero before
  · exact data (List.mem_singleton.mp last).symm

theorem push_mark (closed : Sealed mark marks items) :
    Sealed mark (marks + 1) (items ++ [mark]) := by
  obtain ⟨data, absent, rfl⟩ := closed
  refine ⟨data, absent, ?_⟩
  rw [List.append_assoc, List.replicate_succ']

theorem count [DecidableEq Item] (closed : Sealed mark marks items) : items.count mark = marks := by
  obtain ⟨data, absent, rfl⟩ := closed
  rw [List.count_append, List.count_eq_zero.mpr absent, List.count_replicate_self, Nat.zero_add]

theorem last (closed : Sealed mark (marks + 1) items) : items.getLast? = some mark := by
  obtain ⟨data, _, rfl⟩ := closed
  rw [List.replicate_succ', ← List.append_assoc, List.getLast?_concat]

theorem after_mark (closed : Sealed mark marks (front ++ back)) (taken : mark ∈ front) :
    ∀ item ∈ back, item = mark := by
  obtain ⟨data, absent, same⟩ := closed
  rcases List.append_eq_append_iff.mp same with ⟨middle, split, _⟩ | ⟨middle, _, split⟩
  · rw [split] at absent
    exact absurd (List.mem_append_left middle taken) absent
  · intro item member
    have inside : item ∈ List.replicate marks mark := by
      rw [split]
      exact List.mem_append_right middle member
    exact List.eq_of_mem_replicate inside

theorem rest (closed : Sealed mark marks (front ++ back)) : ∃ left, Sealed mark left back := by
  obtain ⟨data, absent, same⟩ := closed
  rcases List.append_eq_append_iff.mp same with ⟨middle, split, tail⟩ | ⟨middle, _, split⟩
  · refine ⟨marks, middle, ?_, tail⟩
    intro member
    rw [split] at absent
    exact absent (List.mem_append_right front member)
  · refine ⟨back.length, [], List.not_mem_nil, ?_⟩
    rw [List.nil_append]
    apply List.eq_replicate_of_mem
    intro item member
    have inside : item ∈ List.replicate marks mark := by
      rw [split]
      exact List.mem_append_right middle member
    exact List.eq_of_mem_replicate inside

theorem drained [DecidableEq Item] (closed : Sealed mark marks (front ++ back))
    (all : front.count mark = marks) (positive : 0 < marks) : back = [] := by
  have taken : mark ∈ front := List.count_pos_iff.mp (by omega)
  have total := closed.count
  rw [List.count_append, all] at total
  have none_left : back.count mark = 0 := by omega
  apply List.eq_nil_iff_forall_not_mem.mpr
  intro item member
  rw [closed.after_mark taken item member] at member
  exact List.count_eq_zero.mp none_left member

end Sealed

end Netwurk
