/-
Printing the histogram while the stat threads go on. `print` reads every cell
twice, once for the table and once for the running total of its column, and takes
no lock, so an update may land between any two of its reads.
-/

import Mathlib.Algebra.BigOperators.Group.List.Basic
import Mathlib.Algebra.Ring.Int.Defs
import Netwurk.Histogram.Updates

namespace Netwurk.Histogram

open Transition Counters

/-- The loops of `print`: `i` outside, `j` inside. -/
def iterations : List (Fin 10 × Fin 3) :=
  (List.finRange 10).flatMap fun i => (List.finRange 3).map fun j => (i, j)

/-- `ahead` are the iterations not completed, `shown` says that the first of them has
printed its cell, and `table` is what has been printed. -/
structure Printing where
  histogram : Histogram
  ahead : List (Fin 10 × Fin 3)
  shown : Bool
  table : List ((Fin 10 × Fin 3) × Int)
  sum : Fin 3 → Int

namespace Printing

inductive Label where
  | update (patient : Patient) (response : String)
  | printCell
  | addCell

/-- An increment or a total that overflows is undefined. -/
def next (state : Printing) : Label → Option Printing
  | .update patient response =>
      match locate state.histogram.map patient.key response with
      | .found target map =>
          if state.histogram.hist target < INT_MAX then
            some { state with histogram := { hist := bump state.histogram.hist target, map := map } }
          else none
      | .throws _ _ => none
      | .undefined => none
  | .printCell =>
      match state.shown, state.ahead with
      | false, (i, j) :: _ =>
          some { state with
            shown := true
            table := state.table ++ [((i, j), state.histogram.hist (cell j i))] }
      | _, _ => none
  | .addCell =>
      match state.shown, state.ahead with
      | true, (i, j) :: rest =>
          let total := state.sum j + state.histogram.hist (cell j i)
          if INT_MIN ≤ total ∧ total ≤ INT_MAX then
            some { state with
              ahead := rest
              shown := false
              sum := Function.update state.sum j total }
          else none
      | _, _ => none

def begin (histogram : Histogram) : Printing :=
  { histogram := histogram
    ahead := iterations
    shown := false
    table := []
    sum := fun _ => 0 }

def printing (histogram : Histogram) : System Printing Label where
  start := fun state => state = begin histogram
  next := next

def columnSum (j : Fin 3) (table : List ((Fin 10 × Fin 3) × Int)) : Int :=
  (table.map fun entry => if entry.1.2 = j then entry.2 else 0).sum

/-- The table shows every cell once, its totals are the sums of what it shows, and
each cell lies between its values at the start and at the end. -/
structure Consistent (histogram : Histogram) (state : Printing) : Prop where
  complete : state.table.map Prod.fst = iterations
  totals : ∀ j, state.sum j = columnSum j state.table
  between : ∀ entry ∈ state.table,
    histogram.hist (cell entry.1.2 entry.1.1) ≤ entry.2 ∧
      entry.2 ≤ state.histogram.hist (cell entry.1.2 entry.1.1)

def pending (state : Printing) : Option (Fin 10 × Fin 3) :=
  if state.shown then state.ahead.head? else none

def target (state : Printing) : Label → Option (Fin 30)
  | .update patient response =>
      match locate state.histogram.map patient.key response with
      | .found target _ => some target
      | .throws _ _ => none
      | .undefined => none
  | .printCell => none
  | .addCell => none

/-- No update hits the cell that `print` has read once and will read again. -/
def Apart (state : Printing) (label : Label) : Prop :=
  state.target label = none ∨
    state.target label ≠ state.pending.map fun iteration => cell iteration.2 iteration.1

instance (state : Printing) (label : Label) : Decidable (state.Apart label) :=
  inferInstanceAs (Decidable (_ ∨ _))

variable {histogram : Histogram} {state after : Printing}

theorem next_update {patient : Patient} {response : String}
    (taken : next state (.update patient response) = some after) :
    ∃ target map, locate state.histogram.map patient.key response = .found target map ∧
      state.histogram.hist target < INT_MAX ∧
      after = { state with
        histogram := { hist := bump state.histogram.hist target, map := map } } := by
  cases located : locate state.histogram.map patient.key response with
  | throws error map => simp only [next, located, reduceCtorEq] at taken
  | undefined => simp only [next, located, reduceCtorEq] at taken
  | found target map =>
      simp only [next, located] at taken
      by_cases room : state.histogram.hist target < INT_MAX
      · rw [if_pos room] at taken
        exact ⟨target, map, rfl, room, (Option.some.inj taken).symm⟩
      · rw [if_neg room] at taken
        cases taken

theorem next_printCell (taken : next state .printCell = some after) :
    ∃ i j rest, state.shown = false ∧ state.ahead = (i, j) :: rest ∧ after = { state with
      shown := true
      table := state.table ++ [((i, j), state.histogram.hist (cell j i))] } := by
  cases shown : state.shown with
  | true => simp only [next, shown, reduceCtorEq] at taken
  | false =>
      cases ahead : state.ahead with
      | nil => simp only [next, shown, ahead, reduceCtorEq] at taken
      | cons iteration rest =>
          simp only [next, shown, ahead, Option.some.injEq] at taken
          exact ⟨iteration.1, iteration.2, rest, rfl, rfl, taken.symm⟩

theorem next_addCell (taken : next state .addCell = some after) :
    ∃ i j rest, state.shown = true ∧ state.ahead = (i, j) :: rest ∧ after = { state with
      ahead := rest
      shown := false
      sum := Function.update state.sum j
        (state.sum j + state.histogram.hist (cell j i)) } := by
  cases shown : state.shown with
  | false => simp only [next, shown, reduceCtorEq] at taken
  | true =>
      cases ahead : state.ahead with
      | nil => simp only [next, shown, ahead, reduceCtorEq] at taken
      | cons iteration rest =>
          simp only [next, shown, ahead] at taken
          split_ifs at taken
          exact ⟨iteration.1, iteration.2, rest, rfl, rfl, (Option.some.inj taken).symm⟩

/-! ### The surplus of a total over its column -/

/-- What the second read of the pending cell will add to a total. -/
def owed (state : Printing) (j : Fin 3) : Int :=
  match state.pending with
  | some iteration => if iteration.2 = j then state.histogram.hist (cell j iteration.1) else 0
  | none => 0

def surplus (state : Printing) (j : Fin 3) : Int :=
  state.sum j + state.owed j - columnSum j state.table

def hit (state : Printing) (target : Fin 30) (j : Fin 3) : Int :=
  match state.pending with
  | some iteration => if iteration.2 = j ∧ target = cell j iteration.1 then 1 else 0
  | none => 0

theorem columnSum_append (j : Fin 3) (table : List ((Fin 10 × Fin 3) × Int))
    (entry : (Fin 10 × Fin 3) × Int) :
    columnSum j (table ++ [entry]) =
      columnSum j table + if entry.1.2 = j then entry.2 else 0 := by
  unfold columnSum
  rw [List.map_append, List.sum_append, List.map_singleton, List.sum_singleton]

theorem surplus_begin (histogram : Histogram) (j : Fin 3) : (begin histogram).surplus j = 0 :=
  rfl

theorem surplus_printCell (taken : next state .printCell = some after) (j : Fin 3) :
    after.surplus j = state.surplus j := by
  obtain ⟨i, column, rest, shown, ahead, rfl⟩ := next_printCell taken
  unfold surplus owed pending
  simp only [shown, ahead, columnSum_append, Bool.false_eq_true, if_false, if_true,
    List.head?_cons]
  by_cases here : column = j
  · subst here
    simp only [if_true]
    omega
  · simp only [if_neg here]
    omega

theorem surplus_addCell (taken : next state .addCell = some after) (j : Fin 3) :
    after.surplus j = state.surplus j := by
  obtain ⟨i, column, rest, shown, ahead, rfl⟩ := next_addCell taken
  unfold surplus owed pending
  simp only [shown, ahead, Bool.false_eq_true, if_false, if_true, List.head?_cons]
  by_cases here : column = j
  · subst here
    simp only [if_true, Function.update_self]
    omega
  · simp only [if_neg here, Function.update_of_ne (Ne.symm here)]

theorem surplus_update {target : Fin 30} {map : List (String × Nat)}
    (room : state.histogram.hist target < INT_MAX) (j : Fin 3) :
    ({ state with
      histogram := { hist := bump state.histogram.hist target, map := map } } :
        Printing).surplus j = state.surplus j + state.hit target j := by
  unfold surplus owed hit pending
  cases (if state.shown = true then state.ahead.head? else none) with
  | none => simp
  | some iteration =>
      simp only
      by_cases column : iteration.2 = j
      · by_cases same : target = cell j iteration.1
        · subst same
          simp only [column, true_and, if_true, bump, Function.update_self, increment_of_lt room]
          omega
        · simp only [column, same, and_false, if_true, if_false, bump,
            Function.update_of_ne (Ne.symm same)]
          omega
      · simp only [column, false_and, if_false]
        omega

theorem hit_nonneg (state : Printing) (target : Fin 30) (j : Fin 3) : 0 ≤ state.hit target j := by
  unfold hit
  split
  · split_ifs <;> decide
  · exact Int.le_refl 0

theorem hit_eq_zero {target : Fin 30} :
    (∀ j, state.hit target j = 0) ↔
      some target ≠ state.pending.map fun iteration => cell iteration.2 iteration.1 := by
  unfold hit
  cases state.pending with
  | none => simp
  | some iteration =>
      rw [Option.map_some]
      constructor
      · intro never equal
        have here := never iteration.2
        simp only [(Option.some.inj equal).symm, and_self, if_true] at here
        exact absurd here (by decide)
      · intro apart column
        refine if_neg ?_
        intro both
        obtain ⟨rfl, same⟩ := both
        exact apart (congrArg some same)

theorem surplus_nonneg (reached : (printing histogram).Reachable state) :
    ∀ j, 0 ≤ state.surplus j := by
  apply reached.invariant
  · intro begun started
    subst started
    intro j
    exact Int.le_of_eq (surplus_begin histogram j).symm
  · intro before label later _ held taken j
    cases label with
    | printCell => rw [surplus_printCell taken]; exact held j
    | addCell => rw [surplus_addCell taken]; exact held j
    | update patient response =>
        obtain ⟨target, map, _, room, rfl⟩ := next_update taken
        rw [surplus_update room]
        exact Int.add_nonneg (held j) (before.hit_nonneg target j)

/-- A step keeps the totals in balance exactly when it does not hit a pending cell. -/
theorem balanced_iff_apart (label : Label) (reached : (printing histogram).Reachable state)
    (taken : next state label = some after) :
    (∀ j, after.surplus j = 0) ↔ (∀ j, state.surplus j = 0) ∧ state.Apart label := by
  cases label with
  | printCell =>
      have apart : state.Apart .printCell := .inl rfl
      simp only [surplus_printCell taken, apart, and_true]
  | addCell =>
      have apart : state.Apart .addCell := .inl rfl
      simp only [surplus_addCell taken, apart, and_true]
  | update patient response =>
      obtain ⟨target, map, located, room, rfl⟩ := next_update taken
      have apart : state.Apart (.update patient response) ↔ ∀ j, state.hit target j = 0 := by
        have hits : state.target (.update patient response) = some target := by
          simp only [Printing.target, located]
        rw [hit_eq_zero, Apart, hits]
        exact or_iff_right (Option.some_ne_none target)
      rw [apart]
      simp only [surplus_update room]
      have nonneg := surplus_nonneg reached
      constructor
      · intro balanced
        have both_zero : ∀ j, state.surplus j = 0 ∧ state.hit target j = 0 := by
          intro j
          have total := balanced j
          have low := nonneg j
          have more := state.hit_nonneg target j
          omega
        exact ⟨fun j => (both_zero j).1, fun j => (both_zero j).2⟩
      · intro both j
        rw [both.1 j, both.2 j]
        rfl

theorem le_bump {hist : Fin 30 → Int} {target : Fin 30} (room : hist target < INT_MAX)
    (other : Fin 30) : hist other ≤ bump hist target other := by
  unfold bump
  by_cases same : other = target
  · subst same
    rw [Function.update_self, increment_of_lt room]
    omega
  · rw [Function.update_of_ne same]

structure Sound (histogram : Histogram) (state : Printing) : Prop where
  grown : ∀ target, histogram.hist target ≤ state.histogram.hist target
  order : state.table.map Prod.fst ++ (if state.shown then state.ahead.tail else state.ahead) =
    iterations
  between : ∀ entry ∈ state.table,
    histogram.hist (cell entry.1.2 entry.1.1) ≤ entry.2 ∧
      entry.2 ≤ state.histogram.hist (cell entry.1.2 entry.1.1)

theorem sound_of_reachable (reached : (printing histogram).Reachable state) :
    state.Sound histogram := by
  apply reached.invariant
  · intro begun started
    subst started
    exact ⟨fun _ => Int.le_refl _, rfl, fun _ member => by cases member⟩
  · intro before label later _ sound taken
    cases label with
    | printCell =>
        obtain ⟨i, j, rest, shown, ahead, rfl⟩ := next_printCell taken
        refine ⟨sound.grown, ?_, ?_⟩
        · have order := sound.order
          rw [shown, ahead] at order
          simpa [ahead] using order
        · intro entry member
          rcases List.mem_append.mp member with earlier | last
          · exact sound.between entry earlier
          · rw [List.mem_singleton.mp last]
            exact ⟨sound.grown _, Int.le_refl _⟩
    | addCell =>
        obtain ⟨i, j, rest, shown, ahead, rfl⟩ := next_addCell taken
        refine ⟨sound.grown, ?_, sound.between⟩
        have order := sound.order
        rw [shown, ahead] at order
        simpa using order
    | update patient response =>
        obtain ⟨target, map, _, room, rfl⟩ := next_update taken
        have more := le_bump room
        refine ⟨fun other => Int.le_trans (sound.grown other) (more other), sound.order, ?_⟩
        intro entry member
        have held := sound.between entry member
        exact ⟨held.1, Int.le_trans held.2 (more _)⟩

/-- A printed table is consistent exactly when no update has hit a cell between the
two reads that `print` makes of it. -/
theorem print_consistent_iff_apart (histogram : Histogram) {labels : List Label}
    (ran : (printing histogram).run (begin histogram) labels = some after)
    (finished : after.ahead = []) :
    after.Consistent histogram ↔
      (printing histogram).Along Printing.Apart (begin histogram) labels := by
  have started : (printing histogram).Reachable (begin histogram) := .begin rfl
  have sound := sound_of_reachable (started.of_run ran)
  have settled : ∀ j, after.surplus j = after.sum j - columnSum j after.table := by
    intro j
    unfold surplus owed pending
    rw [finished]
    cases after.shown <;> simp
  have along := System.run_iff_along (fun state : Printing => ∀ j, state.surplus j = 0)
    (fun state label later reached taken => balanced_iff_apart label reached taken) started ran
  rw [and_iff_right (surplus_begin histogram)] at along
  rw [← along]
  constructor
  · intro consistent j
    rw [settled, consistent.totals j]
    omega
  · intro balanced
    refine ⟨?_, ?_, sound.between⟩
    · have order := sound.order
      rw [finished] at order
      simpa using order
    · intro j
      have zero := balanced j
      rw [settled] at zero
      omega

def remaining : List Label := (List.replicate 29 [Label.printCell, .addCell]).flatten

theorem print_consistent_iff_apart_elsewhere :
    ∃ after, (printing fresh).run (begin fresh)
        (.printCell :: .update .jane "5" :: .addCell :: remaining) = some after ∧
      after.Consistent fresh ∧ after.sum Patient.jane.row = 1 := by
  have ran : ((printing fresh).run (begin fresh)
      (.printCell :: .update .jane "5" :: .addCell :: remaining)).map
        (fun after => (after.ahead, after.sum Patient.jane.row)) = some ([], 1) := by
    decide +kernel
  obtain ⟨after, run, last⟩ := Option.map_eq_some_iff.mp ran
  obtain ⟨finished, total⟩ := Prod.mk.inj last
  have apart : (printing fresh).Along Printing.Apart (begin fresh)
      (.printCell :: .update .jane "5" :: .addCell :: remaining) := by
    decide +kernel
  exact ⟨after, run, (print_consistent_iff_apart fresh run finished).mpr apart, total⟩

/-- A reply for John counted after his first cell has been printed: the table shows
no reply and a total of one. -/
theorem print_not_consistent :
    ∃ after, (printing fresh).run (begin fresh)
        (.printCell :: .update .john "5" :: .addCell :: remaining) = some after ∧
      after.ahead = [] ∧ ¬ after.Consistent fresh := by
  have ran : ((printing fresh).run (begin fresh)
      (.printCell :: .update .john "5" :: .addCell :: remaining)).map
        (fun after => (after.ahead, after.sum Patient.john.row,
          columnSum Patient.john.row after.table)) = some ([], 1, 0) := by
    decide +kernel
  obtain ⟨after, run, last⟩ := Option.map_eq_some_iff.mp ran
  obtain ⟨finished, sums⟩ := Prod.mk.inj last
  obtain ⟨total, shown⟩ := Prod.mk.inj sums
  refine ⟨after, run, finished, ?_⟩
  intro consistent
  have equal := consistent.totals Patient.john.row
  rw [total, shown] at equal
  cases equal

end Printing

end Netwurk.Histogram
