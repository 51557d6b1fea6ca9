/-
Sequences of updates from a new histogram. Only an update whose request is a
patient's and whose response lies in 0..99 finds the cell it is meant for; the
others find a cell of somebody else, or none.
-/

import Netwurk.Histogram

namespace Netwurk.Histogram

open RequestChannel Counters

/-- Updates one after another. A `stoi` that throws leaves what `map` has become. -/
def applyAll : Histogram → List (String × String) → Option Histogram
  | histogram, [] => some histogram
  | histogram, (request, response) :: rest =>
      match histogram.update request response with
      | .counted after => applyAll after rest
      | .throws _ after => applyAll after rest
      | .undefined => none

/-- The map as it stands after some updates: the patients keep their rows, and
every other key it holds came in with the value 0. -/
structure Grown (map : List (String × Nat)) : Prop where
  known : ∀ patient : Patient, map.lookup patient.key = some patient.row.val
  unknown : ∀ request, (∀ patient : Patient, request ≠ patient.key) →
    map.lookup request = none ∨ map.lookup request = some 0

theorem grown_fresh : Grown fresh.map where
  known := by
    intro patient
    cases patient <;> decide
  unknown := by
    intro request stranger
    refine .inl ?_
    have john : (request == "data John Smith") = false := beq_false_of_ne (stranger .john)
    have jane : (request == "data Jane Smith") = false := beq_false_of_ne (stranger .jane)
    have joe : (request == "data Joe Smith") = false := beq_false_of_ne (stranger .joe)
    simp only [fresh, List.lookup_cons, List.lookup_nil, john, jane, joe]

theorem subscript_known {map : List (String × Nat)} (grown : Grown map) (patient : Patient) :
    subscript map patient.key = (patient.row.val, map) := by
  unfold subscript
  rw [grown.known patient]

theorem Grown.subscript {map : List (String × Nat)} (grown : Grown map) (request : String) :
    Grown (Histogram.subscript map request).2 := by
  unfold Histogram.subscript
  cases found : map.lookup request with
  | some index => exact grown
  | none =>
      constructor
      · intro patient
        rw [List.lookup_append, grown.known patient]
        rfl
      · intro other stranger
        rw [List.lookup_append]
        rcases grown.unknown other stranger with absent | zero
        · rw [absent, Option.none_or, List.lookup_cons]
          cases other == request with
          | true => exact .inr rfl
          | false => exact .inl rfl
        · rw [zero]
          exact .inr rfl

def countsFor (patient : Patient) (bin : Fin 10) (pair : String × String) : Bool :=
  decide (pair.1 = patient.key) && inBin bin pair.2

def Stray (pair : String × String) : Prop :=
  (∀ patient : Patient, pair.1 ≠ patient.key) ∨
    match stoi pair.2.toList with
    | .error _ => True
    | .ok value => value < 0 ∨ 100 ≤ value

/-- Every pair in the right cell or in none. -/
structure CountsEach (pairs : List (String × String)) : Prop where
  counts : ∃ after, applyAll fresh pairs = some after ∧ ∀ (patient : Patient) (bin : Fin 10),
    after.hist (cell patient.row bin) = pairs.countP (countsFor patient bin)
  ignores : ∀ front pair back before, pairs = front ++ pair :: back →
    applyAll fresh front = some before → Stray pair →
      ∃ after, applyAll before [pair] = some after ∧ after.hist = before.hist

/-- The pairs that belong in no cell are stopped by `stoi`. -/
def Checked (pairs : List (String × String)) : Prop :=
  ∀ pair ∈ pairs, Stray pair → ∃ error, stoi pair.2.toList = .error error

def Fits (pairs : List (String × String)) : Prop :=
  ∀ (patient : Patient) (bin : Fin 10),
    (pairs.countP (countsFor patient bin) : Int) ≤ INT_MAX

theorem not_inBin_of_error {response : String} {error : StoiError}
    (refused : stoi response.toList = .error error) (bin : Fin 10) :
    inBin bin response = false := by
  unfold inBin
  rw [refused]

theorem locate_of_error {map : List (String × Nat)} (request : String) {response : String}
    {error : StoiError} (refused : stoi response.toList = .error error) :
    locate map request response = .throws error (subscript map request).2 := by
  unfold locate
  rw [refused]

theorem locate_of_kept {map : List (String × Nat)} (grown : Grown map)
    {pair : String × String} (kept : ¬ Stray pair) :
    ∃ target, locate map pair.1 pair.2 = .found target map ∧ ∀ (patient : Patient) (bin : Fin 10),
      countsFor patient bin pair = decide (cell patient.row bin = target) := by
  obtain ⟨request, response⟩ := pair
  obtain ⟨stranger, inside⟩ := not_or.mp kept
  obtain ⟨patient, same⟩ := not_forall_not.mp stranger
  change request = patient.key at same
  subst same
  cases number : stoi response.toList with
  | error error =>
      simp only [number, not_true_eq_false] at inside
  | ok value =>
      simp only [number, not_or, Int.not_lt, Int.not_le] at inside
      obtain ⟨natural, rfl⟩ := Int.eq_ofNat_of_zero_le inside.1
      have small : natural < 100 := by omega
      refine ⟨_, locate_of_value (subscript_known grown patient) small number, ?_⟩
      intro other bin
      unfold countsFor
      rw [inBin_of_value small number, ← Bool.decide_and]
      apply decide_eq_decide.mpr
      constructor
      · intro both
        rw [Patient.key_injective both.1, both.2]
      · intro equal
        obtain ⟨rows, bins⟩ := cell_injective equal
        exact ⟨congrArg Patient.key (Patient.row_injective rows).symm, bins⟩

/-! ### Whole sequences -/

theorem applyAll_append (histogram : Histogram) (front back : List (String × String)) :
    applyAll histogram (front ++ back) =
      (applyAll histogram front).bind fun before => applyAll before back := by
  induction front generalizing histogram with
  | nil => rfl
  | cons pair front ih =>
      rw [List.cons_append, applyAll, applyAll]
      cases histogram.update pair.1 pair.2 with
      | counted after => exact ih after
      | throws error after => exact ih after
      | undefined => rfl

theorem applyAll_of_checked {histogram : Histogram} (grown : Grown histogram.map)
    {pairs : List (String × String)} (checked : Checked pairs) :
    ∃ after targets, applyAll histogram pairs = some after ∧ Grown after.map ∧
      after.hist = bumps histogram.hist targets ∧ ∀ (patient : Patient) (bin : Fin 10),
        targets.count (cell patient.row bin) = pairs.countP (countsFor patient bin) := by
  induction pairs generalizing histogram with
  | nil => exact ⟨histogram, [], rfl, grown, rfl, fun _ _ => rfl⟩
  | cons pair pairs ih =>
      have tail : Checked pairs := fun other member => checked other (List.mem_cons_of_mem _ member)
      cases number : stoi pair.2.toList with
      | error error =>
          obtain ⟨after, targets, applied, grownAfter, same, exact⟩ :=
            @ih { histogram with map := (subscript histogram.map pair.1).2 }
              (grown.subscript pair.1) tail
          refine ⟨after, targets, ?_, grownAfter, same, ?_⟩
          · rw [applyAll, update, locate_of_error pair.1 number]
            exact applied
          · intro patient bin
            rw [exact, List.countP_cons, countsFor, not_inBin_of_error number, Bool.and_false,
              if_neg Bool.false_ne_true]
            rfl
      | ok value =>
          have kept : ¬ Stray pair := by
            intro stray
            obtain ⟨error, refused⟩ := checked pair List.mem_cons_self stray
            rw [number] at refused
            cases refused
          obtain ⟨target, found, own⟩ := locate_of_kept grown kept
          obtain ⟨after, targets, applied, grownAfter, same, exact⟩ :=
            @ih { histogram with hist := bump histogram.hist target } grown tail
          refine ⟨after, target :: targets, ?_, grownAfter, same, ?_⟩
          · rw [applyAll, update, found]
            exact applied
          · intro patient bin
            rw [List.count_cons, List.countP_cons, exact, own, Bool.beq_eq_decide_eq]
            simp only [eq_comm]

theorem stray_not_ignored {before after : Histogram} {pair : String × String} {value : Int}
    (number : stoi pair.2.toList = .ok value) (applied : applyAll before [pair] = some after) :
    after.hist ≠ before.hist := by
  rw [applyAll, update] at applied
  cases found : locate before.map pair.1 pair.2 with
  | found target map =>
      rw [found] at applied
      cases applied
      exact bump_ne before.hist target
  | throws error map =>
      unfold locate at found
      simp only [number] at found
      split_ifs at found
  | undefined =>
      rw [found] at applied
      cases applied

theorem checked_of_countsEach {pairs : List (String × String)} (each : CountsEach pairs) :
    Checked pairs := by
  intro pair member stray
  cases number : stoi pair.2.toList with
  | error error => exact ⟨error, rfl⟩
  | ok value =>
      obtain ⟨front, back, split⟩ := List.append_of_mem member
      obtain ⟨whole, applied, _⟩ := each.counts
      rw [split, applyAll_append] at applied
      obtain ⟨before, reached, _⟩ := Option.bind_eq_some_iff.mp applied
      obtain ⟨after, handled, unchanged⟩ := each.ignores front pair back before split reached stray
      exact absurd unchanged (stray_not_ignored number handled)

/-- The updates count each pair in its cell or not at all exactly when `stoi` stops
every pair that belongs in no cell, and the counts fit. -/
theorem counts_each_iff_checked (pairs : List (String × String)) :
    CountsEach pairs ↔ Checked pairs ∧ Fits pairs := by
  constructor
  · intro each
    have checked := checked_of_countsEach each
    refine ⟨checked, ?_⟩
    intro patient bin
    obtain ⟨after, targets, applied, _, same, exact⟩ := applyAll_of_checked grown_fresh checked
    obtain ⟨whole, reached, counted⟩ := each.counts
    rw [applied] at reached
    cases reached
    have total := counted patient bin
    rw [same, bumps_apply, exact] at total
    exact iterate_increment_eq.mp total
  · intro both
    obtain ⟨checked, fits⟩ := both
    constructor
    · obtain ⟨after, targets, applied, _, same, exact⟩ := applyAll_of_checked grown_fresh checked
      refine ⟨after, applied, ?_⟩
      intro patient bin
      rw [same, bumps_apply, exact]
      exact iterate_increment_eq.mpr (fits patient bin)
    · intro front pair back before split _ stray
      obtain ⟨error, refused⟩ := checked pair (by rw [split]; simp) stray
      refine ⟨{ before with map := (subscript before.map pair.1).2 }, ?_, rfl⟩
      rw [applyAll, update, locate_of_error pair.1 refused]
      rfl

/-- A reply of 105 for John is counted in Jane's first bin. -/
theorem counts_each_fails_outside_the_bins : ¬ CountsEach [("data John Smith", "105")] := by
  intro each
  obtain ⟨after, applied, counted⟩ := each.counts
  have expected := counted .jane ⟨0, by decide⟩
  have found : (applyAll fresh [("data John Smith", "105")]).map
      (fun after => after.hist (cell Patient.jane.row ⟨0, by decide⟩)) = some 1 := by decide
  rw [applied, Option.map_some, Option.some.injEq, expected] at found
  revert found
  decide

end Netwurk.Histogram
