/-
Arrays of `int` counters. Increments commute, and threads that increment in two
steps, a read and a write, lose nothing as long as no two of them share a counter.
-/

import Mathlib.Logic.Function.Iterate
import Mathlib.Data.List.Basic
import Mathlib.Data.List.Count
import Netwurk.Foundation.MachineInt
import Netwurk.Foundation.Transition

namespace Netwurk.Counters

open Transition

section Sequences

variable {Index : Type} [DecidableEq Index]

def bump (counters : Index → Int) (index : Index) : Index → Int :=
  Function.update counters index (increment (counters index))

def bumps (counters : Index → Int) (indices : List Index) : Index → Int :=
  indices.foldl bump counters

theorem bump_ne (counters : Index → Int) (index : Index) : bump counters index ≠ counters := by
  intro same
  have here := congrFun same index
  unfold bump increment INT_MAX INT_MIN at here
  rw [Function.update_self] at here
  split_ifs at here <;> omega

theorem bumps_append (counters : Index → Int) (front back : List Index) :
    bumps counters (front ++ back) = bumps (bumps counters front) back :=
  List.foldl_append

theorem bumps_apply (counters : Index → Int) (indices : List Index) (index : Index) :
    bumps counters indices index = increment^[indices.count index] (counters index) := by
  induction indices generalizing counters with
  | nil => rfl
  | cons first rest ih =>
      change bumps (bump counters first) rest index = _
      rw [ih, bump, List.count_cons]
      by_cases same : first = index
      · subst same
        rw [Function.update_self, beq_self_eq_true, if_pos rfl, Function.iterate_succ_apply]
      · rw [Function.update_of_ne (Ne.symm same), beq_false_of_ne same, if_neg Bool.false_ne_true,
          Nat.add_zero]

theorem increment_le_INT_MAX {value : Int} (fits : value ≤ INT_MAX) :
    increment value ≤ INT_MAX := by
  unfold increment INT_MIN
  unfold INT_MAX at *
  split_ifs <;> omega

theorem iterate_increment_eq {count : Nat} :
    increment^[count] 0 = count ↔ (count : Int) ≤ INT_MAX := by
  have bounded : ∀ count : Nat, increment^[count] 0 ≤ INT_MAX := by
    intro count
    induction count with
    | zero => decide
    | succ count ih =>
        rw [Function.iterate_succ_apply']
        exact increment_le_INT_MAX ih
  constructor
  · intro same
    rw [← same]
    exact bounded count
  · intro fits
    induction count with
    | zero => rfl
    | succ count ih =>
        rw [Function.iterate_succ_apply', ih (by omega), increment_of_lt (by omega)]
        rfl

end Sequences

/-! ### Increments in two steps -/

section Threads

variable {Thread Index : Type}

/-- `held` is the counter a thread has read and not yet written, with the value read. -/
structure Threads (Thread Index : Type) where
  counters : Index → Int
  ahead : Thread → List Index
  held : Thread → Option (Index × Int)

inductive Label (Thread : Type) where
  | read (thread : Thread)
  | write (thread : Thread)

def Threads.left (state : Threads Thread Index) (thread : Thread) : List Index :=
  ((state.held thread).map Prod.fst).toList ++ state.ahead thread

theorem Threads.left_of_held {state : Threads Thread Index} {thread : Thread} {index : Index}
    {value : Int} (held : state.held thread = some (index, value)) :
    state.left thread = index :: state.ahead thread := by
  rw [left, held]
  rfl

def Threads.Finished (state : Threads Thread Index) : Prop :=
  ∀ thread, state.held thread = none ∧ state.ahead thread = []

def Apart (indices : Thread → List Index) : Prop :=
  ∀ thread other index, index ∈ indices thread → index ∈ indices other → thread = other

theorem count_flatMap_of_only [DecidableEq Index] {indices : Thread → List Index}
    {order : List Thread} (distinct : order.Nodup) {thread : Thread} (member : thread ∈ order)
    {index : Index} (only : ∀ other, index ∈ indices other → other = thread) :
    (order.flatMap indices).count index = (indices thread).count index := by
  obtain ⟨front, back, rfl⟩ := List.append_of_mem member
  have outside : ∀ part : List Thread, thread ∉ part → (part.flatMap indices).count index = 0 := by
    intro part absent
    apply List.count_eq_zero_of_not_mem
    intro inside
    obtain ⟨other, elsewhere, present⟩ := List.mem_flatMap.mp inside
    exact absent (only other present ▸ elsewhere)
  have parts := List.nodup_append.mp distinct
  have notFront : thread ∉ front := fun inside =>
    parts.2.2 thread inside thread List.mem_cons_self rfl
  have notBack : thread ∉ back := (List.nodup_cons.mp parts.2.1).1
  rw [List.flatMap_append, List.flatMap_cons, List.count_append, List.count_append,
    outside front notFront, outside back notBack, Nat.zero_add, Nat.add_zero]

variable [DecidableEq Thread]

theorem left_read {state : Threads Thread Index} {thread : Thread} {index : Index}
    {rest : List Index} {value : Int} (held : state.held thread = none)
    (ahead : state.ahead thread = index :: rest) (other : Thread) :
    ({ state with
      ahead := Function.update state.ahead thread rest
      held := Function.update state.held thread (some (index, value)) } :
        Threads Thread Index).left other = state.left other := by
  unfold Threads.left
  by_cases same : other = thread
  · subst same
    simp only [Function.update_self, held, ahead]
    rfl
  · simp only [Function.update_of_ne same]

theorem left_write {state : Threads Thread Index} {thread : Thread} {counters : Index → Int}
    (other : Thread) :
    ({ state with
      counters := counters
      held := Function.update state.held thread none } : Threads Thread Index).left other =
        if other = thread then state.ahead thread else state.left other := by
  unfold Threads.left
  by_cases same : other = thread
  · subst same
    simp only [Function.update_self, if_true]
    rfl
  · simp only [Function.update_of_ne same, if_neg same]

variable [DecidableEq Index]

def next (state : Threads Thread Index) : Label Thread → Option (Threads Thread Index)
  | .read thread =>
      match state.held thread, state.ahead thread with
      | none, index :: rest =>
          some { state with
            ahead := Function.update state.ahead thread rest
            held := Function.update state.held thread (some (index, state.counters index)) }
      | _, _ => none
  | .write thread =>
      match state.held thread with
      | some (index, value) =>
          some { state with
            counters := Function.update state.counters index (increment value)
            held := Function.update state.held thread none }
      | none => none

/-- Each thread increments the counters of its own list, one after another. -/
def increments (initial : Index → Int) (indices : Thread → List Index) :
    System (Threads Thread Index) (Label Thread) where
  start := fun state =>
    state = { counters := initial, ahead := indices, held := fun _ => none }
  next := next

variable {state after : Threads Thread Index} {initial : Index → Int}
  {indices : Thread → List Index}

theorem next_cases {label : Label Thread} (taken : next state label = some after) :
    (∃ thread index rest, state.held thread = none ∧ state.ahead thread = index :: rest ∧
        after = { state with
          ahead := Function.update state.ahead thread rest
          held := Function.update state.held thread (some (index, state.counters index)) }) ∨
      (∃ thread index value, state.held thread = some (index, value) ∧
        after = { state with
          counters := Function.update state.counters index (increment value)
          held := Function.update state.held thread none }) := by
  cases label with
  | read thread =>
      cases held : state.held thread with
      | some pair => simp only [next, held, reduceCtorEq] at taken
      | none =>
          cases ahead : state.ahead thread with
          | nil => simp only [next, held, ahead, reduceCtorEq] at taken
          | cons index rest =>
              simp only [next, held, ahead, Option.some.injEq] at taken
              exact .inl ⟨thread, index, rest, held, ahead, taken.symm⟩
  | write thread =>
      cases held : state.held thread with
      | none => simp only [next, held, reduceCtorEq] at taken
      | some pair =>
          simp only [next, held, Option.some.injEq] at taken
          exact .inr ⟨thread, pair.1, pair.2, held, taken.symm⟩

/-- A value read is still the counter's, and a counter that only one thread uses is
as far from its final value as that thread has increments left for it. -/
structure Threads.Sound (initial : Index → Int) (indices : Thread → List Index)
    (state : Threads Thread Index) : Prop where
  within : ∀ thread index, index ∈ state.left thread → index ∈ indices thread
  current : ∀ thread index value, state.held thread = some (index, value) →
    value = state.counters index
  due : ∀ thread index, (∀ other, index ∈ indices other → other = thread) →
    increment^[(state.left thread).count index] (state.counters index) =
      increment^[(indices thread).count index] (initial index)

theorem Threads.Sound.step (apart : Apart indices) (sound : state.Sound initial indices)
    {label : Label Thread} (taken : next state label = some after) :
    after.Sound initial indices := by
  obtain ⟨thread, index, rest, held, ahead, rfl⟩ | ⟨thread, index, value, held, rfl⟩ :=
    next_cases taken
  · refine ⟨?_, ?_, ?_⟩
    · intro other item member
      rw [left_read held ahead] at member
      exact sound.within other item member
    · intro other item value reads
      change Function.update state.held thread _ other = _ at reads
      by_cases same : other = thread
      · subst same
        rw [Function.update_self] at reads
        cases reads
        rfl
      · rw [Function.update_of_ne same] at reads
        exact sound.current other item value reads
    · intro other item only
      rw [left_read held ahead]
      exact sound.due other item only
  · have fresh := sound.current thread index value held
    have mine : index ∈ indices thread :=
      sound.within thread index (by rw [Threads.left_of_held held]; exact List.mem_cons_self)
    refine ⟨?_, ?_, ?_⟩
    · intro other item member
      rw [left_write] at member
      split_ifs at member with same
      · subst same
        exact sound.within other item
          (by rw [Threads.left_of_held held]; exact List.mem_cons_of_mem _ member)
      · exact sound.within other item member
    · intro other item value reads
      change Function.update state.held thread none other = _ at reads
      by_cases same : other = thread
      · subst same
        rw [Function.update_self] at reads
        cases reads
      · rw [Function.update_of_ne same] at reads
        have theirs : item ∈ indices other :=
          sound.within other item (by rw [Threads.left_of_held reads]; exact List.mem_cons_self)
        have different : item ≠ index := by
          intro equal
          subst equal
          exact same (apart other thread item theirs mine)
        change value = Function.update state.counters index _ item
        rw [Function.update_of_ne different]
        exact sound.current other item value reads
    · intro other item only
      rw [left_write, ← sound.due other item only]
      by_cases here : item = index
      · subst here
        have owner := only thread mine
        subst owner
        rw [if_pos rfl, Threads.left_of_held held, List.count_cons_self,
          Function.iterate_succ_apply]
        change increment^[_] (Function.update state.counters item _ item) = _
        rw [Function.update_self, fresh]
      · change increment^[_] (Function.update state.counters index _ item) = _
        rw [Function.update_of_ne here]
        split_ifs with same
        · subst same
          rw [Threads.left_of_held held, List.count_cons_of_ne (Ne.symm here)]
        · rfl

theorem sound_of_reachable (apart : Apart indices)
    (reached : (increments initial indices).Reachable state) : state.Sound initial indices := by
  apply reached.invariant
  · intro begun started
    subst started
    exact ⟨fun _ _ member => member, fun _ _ _ reads => (by cases reads), fun _ _ _ => rfl⟩
  · intro before label later _ sound taken
    exact sound.step apart taken

/-- Whatever the interleaving, threads that share no counter come to what their
lists come to one after another, in any order. -/
theorem finished_counters [Nonempty Thread] (apart : Apart indices)
    (reached : (increments initial indices).Reachable state) (finished : state.Finished)
    {order : List Thread} (distinct : order.Nodup) (complete : ∀ thread, thread ∈ order) :
    state.counters = bumps initial (order.flatMap indices) := by
  have sound := sound_of_reachable apart reached
  have settled : ∀ thread index, (∀ other, index ∈ indices other → other = thread) →
      state.counters index = bumps initial (order.flatMap indices) index := by
    intro thread index only
    have due := sound.due thread index only
    rw [Threads.left, (finished thread).1, (finished thread).2] at due
    rw [bumps_apply, count_flatMap_of_only distinct (complete thread) only]
    exact due
  funext index
  by_cases used : ∃ thread, index ∈ indices thread
  · obtain ⟨thread, member⟩ := used
    exact settled thread index fun other present => apart other thread index present member
  · obtain ⟨thread⟩ := ‹Nonempty Thread›
    exact settled thread index fun other present => absurd ⟨other, present⟩ used

end Threads

end Netwurk.Counters
