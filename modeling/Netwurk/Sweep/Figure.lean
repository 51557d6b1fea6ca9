/-
The second figure of the plotting script. The lists are transposed under their old
names, and the loop that plots them still counts the numbers of workers.
-/

import Netwurk.Sweep.Grouping

namespace Netwurk.Sweep

open Python

/-- `for i in indices: temp.append (entry i)`; `none` is an `IndexError`. -/
def appendAll {Item : Type} (entry : Nat → Option Item) :
    List Nat → List Item → Option (List Item)
  | [], temp => some temp
  | i :: rest, temp =>
      match entry i with
      | some item => appendAll entry rest (temp ++ [item])
      | none => none

theorem appendAll_of_some {Item : Type} {entry : Nat → Option Item} {value : Nat → Item}
    {indices : List Nat} (defined : ∀ i ∈ indices, entry i = some (value i)) (temp : List Item) :
    appendAll entry indices temp = some (temp ++ indices.map value) := by
  induction indices generalizing temp with
  | nil => exact congrArg some (List.append_nil temp).symm
  | cons i rest ih =>
      rw [appendAll, defined i List.mem_cons_self]
      simp only
      rw [ih fun other member => defined other (List.mem_cons_of_mem _ member), List.append_assoc]
      rfl

def entryAt {Item : Type} (matrix : List (List Item)) (j i : Nat) : Option Item :=
  matrix[j]?.bind fun row => row[i]?

/-- The two lists of the transposition loop after it; both take their bounds from `colB`. -/
def transpose {Item : Type} (colB : List (List Int)) (matrix : List (List Item)) :
    Option (List (List Item)) :=
  match colB[0]? with
  | none => none
  | some first =>
      appendAll (fun i => appendAll (fun j => entryAt matrix j i) (List.range colB.length) [])
        (List.range first.length) []

theorem transpose_of_shape {Item : Type} {colB : List (List Int)} {matrix : List (List Item)}
    {first : List Int} (head : colB[0]? = some first) {value : Nat → Nat → Item}
    (defined : ∀ j < colB.length, ∀ i < first.length, entryAt matrix j i = some (value j i)) :
    transpose colB matrix = some ((List.range first.length).map fun i =>
      (List.range colB.length).map fun j => value j i) := by
  unfold transpose
  rw [head]
  simp only
  have column : ∀ i ∈ List.range first.length,
      appendAll (fun j => entryAt matrix j i) (List.range colB.length) [] =
        some ((List.range colB.length).map fun j => value j i) := by
    intro i inside
    have cells : ∀ j ∈ List.range colB.length, entryAt matrix j i = some (value j i) :=
      fun j within => defined j (List.mem_range.mp within) i (List.mem_range.mp inside)
    rw [appendAll_of_some cells, List.nil_append]
  rw [appendAll_of_some column, List.nil_append]

structure Curve where
  xs : List (Option Int)
  ys : List ℚ
  label : List Char
deriving DecidableEq

structure Figure where
  curves : List Curve
  completed : Bool
deriving DecidableEq

def plotLoop (curve : Nat → Option Curve) : List Nat → List Curve → Figure
  | [], curves =>
      { curves := curves
        completed := true }
  | i :: rest, curves =>
      match curve i with
      | some drawn => plotLoop curve rest (curves ++ [drawn])
      | none =>
          { curves := curves
            completed := false }

def sizeLabel (size : Int) : List Char := showInt size ++ " == buffer_size".toList

theorem plotLoop_append_of_some {curve : Nat → Option Curve} {value : Nat → Curve}
    {front : List Nat} (defined : ∀ i ∈ front, curve i = some (value i)) (back : List Nat)
    (curves : List Curve) :
    plotLoop curve (front ++ back) curves = plotLoop curve back (curves ++ front.map value) := by
  induction front generalizing curves with
  | nil => rw [List.nil_append, List.map_nil, List.append_nil]
  | cons i rest ih =>
      rw [List.cons_append, plotLoop, defined i List.mem_cons_self]
      simp only
      rw [ih fun other member => defined other (List.mem_cons_of_mem _ member), List.append_assoc]
      rfl

theorem plotLoop_range {curve : Nat → Option Curve} {value : Nat → Curve} {present : Nat}
    (defined : ∀ i < present, curve i = some (value i)) (missing : curve present = none)
    (count : Nat) :
    plotLoop curve (List.range count) [] =
      { curves := (List.range (min count present)).map value
        completed := decide (count ≤ present) } := by
  by_cases enough : count ≤ present
  · have all : ∀ i ∈ List.range count, curve i = some (value i) :=
      fun i member => defined i (Nat.lt_of_lt_of_le (List.mem_range.mp member) enough)
    have whole := plotLoop_append_of_some all [] []
    rw [List.append_nil, List.nil_append] at whole
    rw [whole, plotLoop, Nat.min_eq_left enough, decide_eq_true enough]
  · have all : ∀ i ∈ List.range present, curve i = some (value i) :=
      fun i member => defined i (List.mem_range.mp member)
    obtain ⟨extra, more⟩ : ∃ extra, count = present + (extra + 1) :=
      ⟨count - present - 1, by omega⟩
    rw [more, List.range_add, plotLoop_append_of_some all, List.nil_append, List.range_succ_eq_map,
      List.map_cons, Nat.add_zero, plotLoop, missing]
    simp only
    rw [Nat.min_eq_right (by omega), decide_eq_false (by omega)]

theorem plotLoop_completed {curve : Nat → Option Curve} {indices : List Nat}
    (defined : ∀ i ∈ indices, (curve i).isSome = true) (curves : List Curve) :
    (plotLoop curve indices curves).completed = true := by
  induction indices generalizing curves with
  | nil => rfl
  | cons i rest ih =>
      obtain ⟨drawn, here⟩ := Option.isSome_iff_exists.mp (defined i List.mem_cons_self)
      rw [plotLoop, here]
      exact ih (fun other member => defined other (List.mem_cons_of_mem _ member)) _

def firstCurve (colW : List (Option Int)) (colB : List (List Int)) (time_sections : List (List ℚ))
    (i : Nat) : Option Curve :=
  match colB[i]?, time_sections[i]?, colW[i]?.join with
  | some sizes, some ys, some w =>
      some
        { xs := sizes.map some
          ys := ys
          label := showInt w ++ " worker threads".toList }
  | _, _, _ => none

def firstFigure (colW : List (Option Int)) (colB : List (List Int))
    (time_sections : List (List ℚ)) : Figure :=
  plotLoop (firstCurve colW colB time_sections) (List.range colW.length) []

def plotCurve (colW : List (Option Int)) (colB : List (List Int)) (time_sections : List (List ℚ))
    (i : Nat) : Option Curve :=
  match time_sections[i]?, entryAt colB i 0 with
  | some ys, some size =>
      some
        { xs := colW
          ys := ys
          label := sizeLabel size }
  | _, _ => none

/-- The transposition and the second plot; the loop runs over `range (len (colW))`. -/
def secondFigure (colW : List (Option Int)) (colB : List (List Int))
    (time_sections : List (List ℚ)) : Option Figure :=
  match transpose colB colB, transpose colB time_sections with
  | some tempf1, some tempf2 =>
      some (plotLoop (plotCurve colW tempf1 tempf2) (List.range colW.length) [])
  | _, _ => none

/-- The script on its two files, for its second figure. -/
def script (output times : List (List Char)) : Option Figure :=
  match groupRows output with
  | none => none
  | some (colW, colB) =>
      match chunkTimes colB times with
      | none => none
      | some time_sections =>
          if (firstFigure colW colB time_sections).completed then
            secondFigure colW colB time_sections
          else none

def testRows (W B : List Int) : List Row :=
  W.flatMap fun i => B.map fun j => { n := 10000, w := i, b := j }

theorem workersOf_testRows {B : List Int} (someB : B ≠ []) (i : Int) :
    workersOf (B.map fun j => { n := 10000, w := i, b := j }) = some i := by
  obtain ⟨first, rest, rfl⟩ := List.exists_cons_of_ne_nil someB
  rfl

theorem maximalRuns_testRows {W B : List Int} (adjacent : W.IsChain (· ≠ ·)) (someB : B ≠ []) :
    MaximalRuns (testRows W B)
      (W.map fun i => B.map fun j => { n := 10000, w := i, b := j }) where
  whole := List.flatMap_def.symm
  nonempty := by
    intro run member absent
    obtain ⟨i, _, rfl⟩ := List.mem_map.mp member
    exact someB (List.map_eq_nil_iff.mp absent)
  constant := by
    intro run member row inside
    obtain ⟨i, _, rfl⟩ := List.mem_map.mp member
    obtain ⟨j, _, rfl⟩ := List.mem_map.mp inside
    exact workersOf_testRows someB i
  maximal := by
    rw [List.isChain_map]
    apply adjacent.imp
    intro i next differs same
    rw [workersOf_testRows someB, workersOf_testRows someB] at same
    exact differs (Option.some.inj same)

theorem groupRows_testRows {W B : List Int} (adjacent : W.IsChain (· ≠ ·)) (someW : W ≠ [])
    (someB : B ≠ []) :
    groupRows ((testRows W B).map Row.line) = some (W.map some, W.map fun _ => B) := by
  have cut := (maximalRuns_testRows adjacent someB).eq_runs
  have nonempty : testRows W B ≠ [] := by
    obtain ⟨i, W, rfl⟩ := List.exists_cons_of_ne_nil someW
    obtain ⟨j, B, rfl⟩ := List.exists_cons_of_ne_nil someB
    exact List.cons_ne_nil _ _
  rw [groupRows_lines nonempty, cut, List.map_map, List.map_map]
  congr 2
  · apply List.map_congr_left
    intro i _
    exact workersOf_testRows someB i
  · apply List.map_congr_left
    intro i _
    rw [Function.comp_apply, List.map_map]
    exact List.map_id B

/-! ### What the figure shows -/

def entry (T : List (List ℚ)) (i j : Nat) : ℚ := (entryAt T i j).getD 0

/-- The curve for one buffer size: the points `(W[i], T[i][j])`. -/
def curveOf (W B : List Int) (T : List (List ℚ)) (j : Nat) : Curve :=
  { xs := W.map some
    ys := (List.range W.length).map fun i => entry T i j
    label := sizeLabel (B[j]?.getD 0) }

def Figure.ShowsSweep (figure : Figure) (W B : List Int) (T : List (List ℚ)) : Prop :=
  figure.completed = true ∧
    figure.curves.Perm ((List.range B.length).map (curveOf W B T))

theorem secondFigure_of_shape {W B : List Int} {T : List (List ℚ)} (someW : W ≠ [])
    (rows : T.length = W.length) (columns : ∀ row ∈ T, row.length = B.length) :
    secondFigure (W.map some) (W.map fun _ => B) T = some
      { curves := (List.range (min W.length B.length)).map (curveOf W B T)
        completed := decide (W.length ≤ B.length) } := by
  have someRow : 0 < W.length := List.length_pos_iff.mpr someW
  have head : (W.map fun _ => B)[0]? = some B := by
    rw [List.getElem?_map, List.getElem?_eq_getElem someRow]
    rfl
  have sizes : ∀ j < (W.map fun _ => B).length, ∀ i < B.length,
      entryAt (W.map fun _ => B) j i = some (B[i]?.getD 0) := by
    intro j within i inside
    rw [List.length_map] at within
    rw [entryAt, List.getElem?_map, List.getElem?_eq_getElem within]
    simp [List.getElem?_eq_getElem inside]
  have times : ∀ j < (W.map fun _ => B).length, ∀ i < B.length,
      entryAt T j i = some (entry T j i) := by
    intro j within i inside
    rw [List.length_map, ← rows] at within
    have row := columns _ (List.getElem_mem within)
    have present : i < T[j].length := by rw [row]; exact inside
    have here : entryAt T j i = some T[j][i] := by
      rw [entryAt, List.getElem?_eq_getElem within, Option.bind_some,
        List.getElem?_eq_getElem present]
    rw [entry, here]
    rfl
  unfold secondFigure
  rw [transpose_of_shape head sizes, transpose_of_shape head times]
  simp only [List.length_map]
  refine congrArg some (plotLoop_range ?_ ?_ W.length)
  · intro i inside
    have ys : ((List.range B.length).map fun i => (List.range W.length).map fun j =>
        entry T j i)[i]? = some ((List.range W.length).map fun j => entry T j i) := by
      rw [List.getElem?_map, List.getElem?_range inside]
      rfl
    have size : entryAt ((List.range B.length).map fun i => (List.range W.length).map fun _ =>
        B[i]?.getD 0) i 0 = some (B[i]?.getD 0) := by
      rw [entryAt, List.getElem?_map, List.getElem?_range inside, Option.map_some,
        Option.bind_some, List.getElem?_map, List.getElem?_range someRow]
      rfl
    unfold plotCurve
    rw [ys, size]
    rfl
  · unfold plotCurve
    rw [List.getElem?_eq_none (by rw [List.length_map, List.length_range])]

theorem firstFigure_completed {W B : List Int} {T : List (List ℚ)}
    (rows : T.length = W.length) :
    (firstFigure (W.map some) (W.map fun _ => B) T).completed = true := by
  apply plotLoop_completed
  intro i member
  have inside : i < W.length := by
    rw [List.mem_range, List.length_map] at member
    exact member
  have present : i < T.length := by rw [rows]; exact inside
  unfold firstCurve
  rw [List.getElem?_map, List.getElem?_map, List.getElem?_eq_getElem inside,
    List.getElem?_eq_getElem present]
  rfl

/-- The second figure shows a whole sweep exactly when there are as many numbers of
workers as buffer sizes. -/
theorem second_figure_whole_iff (W B : List Int) (adjacent : W.IsChain (· ≠ ·)) (someW : W ≠ [])
    (someB : B ≠ []) (times : List (List Char)) (lines : times.length = W.length * B.length)
    (readable : ∀ line ∈ times, (readTime line).isSome = true) :
    ∃ T, T.length = W.length ∧ (∀ row ∈ T, row.length = B.length) ∧
      T.flatten.map some = times.map readTime ∧
      ∃ figure, script ((testRows W B).map Row.line) times = some figure ∧
        (figure.ShowsSweep W B T ↔ W.length = B.length) := by
  obtain ⟨values, valuesLength, read⟩ := exists_times readable
  obtain ⟨T, chunked, whole, rows, columns⟩ :=
    @chunkTimes_sections (W.map fun _ => B) B.length
      (fun absent => someW (List.map_eq_nil_iff.mp absent)) (List.length_pos_iff.mpr someB)
      (by
        intro group member
        obtain ⟨_, _, rfl⟩ := List.mem_map.mp member
        rfl) times values read (by rw [valuesLength, lines, List.length_map])
  rw [List.length_map] at rows
  have drawn : script ((testRows W B).map Row.line) times = some
      { curves := (List.range (min W.length B.length)).map (curveOf W B T)
        completed := decide (W.length ≤ B.length) } := by
    unfold script
    rw [groupRows_testRows adjacent someW someB]
    simp only
    rw [chunked]
    simp only
    rw [if_pos (firstFigure_completed rows)]
    exact secondFigure_of_shape someW rows columns
  refine ⟨T, rows, columns, by rw [whole, read], _, drawn, ?_⟩
  unfold Figure.ShowsSweep
  rw [decide_eq_true_eq]
  constructor
  · intro shows
    have lengths := shows.2.length_eq
    rw [List.length_map, List.length_map, List.length_range, List.length_range] at lengths
    have bound := shows.1
    omega
  · intro square
    rw [square, Nat.min_self]
    exact ⟨Nat.le_refl _, List.Perm.refl _⟩

theorem second_figure_whole_iff_square :
    ∃ T figure, script ((testRows [1, 10] [1, 5]).map Row.line) smallTimes = some figure ∧
      figure.ShowsSweep [1, 10] [1, 5] T := by
  have readable : ∀ line ∈ smallTimes, (readTime line).isSome = true := by decide +kernel
  obtain ⟨T, _, _, _, figure, drawn, shows⟩ := second_figure_whole_iff [1, 10] [1, 5]
    (by decide) (by decide) (by decide) smallTimes (by decide) readable
  exact ⟨T, figure, drawn, shows.mpr rfl⟩

/-- One number of workers and two buffer sizes: the second size has no curve. -/
theorem second_figure_not_whole :
    ∃ figure, script ((testRows [1] [1, 5]).map Row.line) (smallTimes.take 2) = some figure ∧
      figure.curves.length = 1 ∧ ∀ T, ¬ figure.ShowsSweep [1] [1, 5] T := by
  have ran : (script ((testRows [1] [1, 5]).map Row.line) (smallTimes.take 2)).map
      (fun figure => figure.curves.length) = some 1 := by
    decide +kernel
  obtain ⟨figure, drawn, single⟩ := Option.map_eq_some_iff.mp ran
  refine ⟨figure, drawn, single, ?_⟩
  intro T shows
  have lengths := shows.2.length_eq
  rw [single, List.length_map, List.length_range] at lengths
  cases lengths

end Netwurk.Sweep
