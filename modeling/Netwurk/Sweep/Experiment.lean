/-
A whole experiment. The test script runs the client for every pair of a number of
workers and a buffer size, the client prints how long it took, and the plotting script
draws the times twice, over the buffer sizes and over the numbers of workers.
-/

import Mathlib.Data.List.Flatten
import Netwurk.Sweep.Figure

namespace Netwurk.Sweep

open Python

/-- The script up to its first figure. -/
def scriptFirst (output times : List (List Char)) : Option Figure :=
  match groupRows output with
  | none => none
  | some (colW, colB) =>
      match chunkTimes colB times with
      | none => none
      | some time_sections => some (firstFigure colW colB time_sections)

/-- What the test script appends to `output.txt`, in its order. -/
def outputFile (W B : List Int) : List (List Char) := (testRows W B).map Row.line

/-- What the runs print, a row of spans for each number of workers. -/
def timesFile (spans : List (List Span)) : Option (List (List Char)) :=
  spans.flatten.mapM Span.line

def measured (spans : List (List Span)) : List (List ℚ) := spans.map (List.map Span.elapsed)

/-- The curve for the `i`th number of workers: the points `(B[j], T[i][j])`. -/
def workerCurve (W B : List Int) (T : List (List ℚ)) (i : Nat) : Curve :=
  { xs := B.map some
    ys := T[i]?.getD []
    label := showInt (W[i]?.getD 0) ++ " worker threads".toList }

def Figure.ShowsWorkers (figure : Figure) (W B : List Int) (T : List (List ℚ)) : Prop :=
  figure.completed = true ∧ figure.curves = (List.range W.length).map (workerCurve W B T)

theorem firstFigure_of_shape {W B : List Int} {T : List (List ℚ)} (rows : T.length = W.length) :
    (firstFigure (W.map some) (W.map fun _ => B) T).ShowsWorkers W B T := by
  have drawn : firstFigure (W.map some) (W.map fun _ => B) T =
      { curves := (List.range (min W.length W.length)).map (workerCurve W B T)
        completed := decide (W.length ≤ W.length) } := by
    unfold firstFigure
    rw [List.length_map]
    refine plotLoop_range ?_ ?_ W.length
    · intro i inside
      have present : i < T.length := by rw [rows]; exact inside
      have sizes : (W.map fun _ => B)[i]? = some B := by
        rw [List.getElem?_map, List.getElem?_eq_getElem inside]
        rfl
      have workers : (W.map some)[i]?.join = some W[i] := by
        rw [List.getElem?_map, List.getElem?_eq_getElem inside]
        rfl
      unfold firstCurve workerCurve
      rw [sizes, workers, List.getElem?_eq_getElem present, List.getElem?_eq_getElem inside]
      rfl
    · unfold firstCurve
      rw [List.getElem?_eq_none (by rw [List.length_map])]
  rw [drawn]
  exact ⟨decide_eq_true (Nat.le_refl _), by rw [Nat.min_self]⟩

theorem showsWorkers_iff {figure : Figure} {W B : List Int} {T other : List (List ℚ)}
    (shows : figure.ShowsWorkers W B T) (rows : T.length = W.length)
    (otherRows : other.length = W.length) : figure.ShowsWorkers W B other ↔ T = other := by
  constructor
  · intro otherShows
    have curves := shows.2.symm.trans otherShows.2
    apply List.ext_getElem (rows.trans otherRows.symm)
    intro i inside otherInside
    have member : i ∈ List.range W.length := List.mem_range.mpr (rows ▸ inside)
    have same := congrArg Curve.ys (List.map_inj_left.mp curves i member)
    simpa [workerCurve, List.getElem?_eq_getElem inside, List.getElem?_eq_getElem otherInside]
      using same
  · intro same
    rw [← same]
    exact shows

theorem flatten_measured (spans : List (List Span)) :
    (measured spans).flatten = spans.flatten.map Span.elapsed := by
  rw [measured, List.map_flatten]

theorem printed_lines {spans : List Span} {lines : List (List Char)}
    (printed : spans.mapM Span.line = some lines) : spans.map Span.line = lines.map some := by
  induction spans generalizing lines with
  | nil =>
      cases printed
      rfl
  | cons span spans ih =>
      rw [List.mapM_cons] at printed
      obtain ⟨line, first, rest⟩ := Option.bind_eq_some_iff.mp printed
      obtain ⟨others, remaining, joined⟩ := Option.bind_eq_some_iff.mp rest
      cases joined
      rw [List.map_cons, List.map_cons, first, ih remaining]

theorem printed_read {spans : List Span} {lines : List (List Char)}
    (printed : spans.mapM Span.line = some lines) :
    (∀ line ∈ lines, (readTime line).isSome = true) ∧
      spans.map Span.read = lines.map readTime := by
  have same := printed_lines printed
  constructor
  · intro line member
    have present : some line ∈ spans.map Span.line := by
      rw [same]
      exact List.mem_map_of_mem member
    obtain ⟨span, _, written⟩ := List.mem_map.mp present
    have fits : span.Fits := by
      by_contra overflows
      rw [Span.line_of_overflow overflows] at written
      cases written
    have read := Span.read_eq fits
    rw [Span.read, written, Option.bind_some] at read
    rw [read]
    rfl
  · have through := congrArg (List.map fun line : Option (List Char) => line.bind readTime) same
    rw [List.map_map, List.map_map] at through
    exact through

theorem read_measured_iff {T : List (List ℚ)} {spans : List (List Span)}
    (read : T.flatten.map some = spans.flatten.map Span.read)
    (rows : T.length = spans.length) (size : Nat) (columns : ∀ row ∈ T, row.length = size)
    (spanColumns : ∀ row ∈ spans, row.length = size) :
    T = measured spans ↔ ∀ row ∈ spans, ∀ span ∈ row, span.SixDigits := by
  have lengths : T.map List.length = (measured spans).map List.length := by
    rw [List.map_congr_left columns, measured, List.map_map]
    have spanLengths : ∀ row ∈ spans, (List.length ∘ List.map Span.elapsed) row = size := by
      intro row member
      rw [Function.comp_apply, List.length_map, spanColumns row member]
    rw [List.map_congr_left spanLengths, List.map_const', List.map_const', rows]
  rw [List.eq_iff_flatten_eq, and_iff_left lengths, flatten_measured]
  have exact_ : T.flatten = spans.flatten.map Span.elapsed ↔
      ∀ span ∈ spans.flatten, span.SixDigits := by
    rw [← (List.map_injective_iff.mpr (Option.some_injective ℚ)).eq_iff, read, List.map_map,
      List.map_inj_left]
    exact forall₂_congr fun span _ => span.read_eq_elapsed_iff
  rw [exact_]
  constructor
  · intro all row member span inside
    exact all span (List.mem_flatten.mpr ⟨row, member, inside⟩)
  · intro all span member
    obtain ⟨row, here, inside⟩ := List.mem_flatten.mp member
    exact all row here span inside

/-! ### Both figures -/

/-- The first figure shows the times that were measured exactly when every run printed
its microseconds with six digits, and both figures do exactly when there are also as many
numbers of workers as buffer sizes. -/
theorem figures_exact_iff {W B : List Int} (adjacent : W.IsChain (· ≠ ·)) (someW : W ≠ [])
    (someB : B ≠ []) {spans : List (List Span)} (rows : spans.length = W.length)
    (columns : ∀ row ∈ spans, row.length = B.length) {times : List (List Char)}
    (printed : timesFile spans = some times) :
    ∃ first second, scriptFirst (outputFile W B) times = some first ∧
      script (outputFile W B) times = some second ∧
      (first.ShowsWorkers W B (measured spans) ↔
        ∀ row ∈ spans, ∀ span ∈ row, span.SixDigits) ∧
      (first.ShowsWorkers W B (measured spans) ∧ second.ShowsSweep W B (measured spans) ↔
        (∀ row ∈ spans, ∀ span ∈ row, span.SixDigits) ∧ W.length = B.length) := by
  obtain ⟨readable, same⟩ := printed_read printed
  obtain ⟨values, valuesLength, read⟩ := exists_times readable
  have total : values.length = (W.map fun _ => B).length * B.length := by
    have lengths := congrArg List.length same
    rw [List.length_map, List.length_map] at lengths
    rw [valuesLength, ← lengths, length_flatten_of_length columns, rows, List.length_map]
  obtain ⟨T, chunked, whole, sections, full⟩ :=
    @chunkTimes_sections (W.map fun _ => B) B.length
      (fun absent => someW (List.map_eq_nil_iff.mp absent)) (List.length_pos_iff.mpr someB)
      (by
        intro group member
        obtain ⟨_, _, rfl⟩ := List.mem_map.mp member
        rfl) times values read total
  rw [List.length_map] at sections
  have shown := @firstFigure_of_shape W B T sections
  have drawnFirst : scriptFirst (outputFile W B) times =
      some (firstFigure (W.map some) (W.map fun _ => B) T) := by
    unfold scriptFirst outputFile
    rw [groupRows_testRows adjacent someW someB]
    simp only
    rw [chunked]
  have drawnSecond : script (outputFile W B) times = some
      { curves := (List.range (min W.length B.length)).map (curveOf W B T)
        completed := decide (W.length ≤ B.length) } := by
    unfold script outputFile
    rw [groupRows_testRows adjacent someW someB]
    simp only
    rw [chunked]
    simp only
    rw [if_pos (firstFigure_completed sections)]
    exact secondFigure_of_shape someW sections full
  have measuredRows : (measured spans).length = W.length := by
    rw [measured, List.length_map, rows]
  have first := (showsWorkers_iff shown sections measuredRows).trans
    (read_measured_iff (by rw [whole, same, read]) (sections.trans rows.symm) B.length full columns)
  refine ⟨_, _, drawnFirst, drawnSecond, first, ?_⟩
  constructor
  · intro both
    refine ⟨first.mp both.1, ?_⟩
    obtain ⟨completed, shows⟩ := both.2
    have enough := of_decide_eq_true completed
    have lengths := shows.length_eq
    rw [List.length_map, List.length_map, List.length_range, List.length_range] at lengths
    omega
  · intro both
    obtain ⟨six, square⟩ := both
    have same := (showsWorkers_iff shown sections measuredRows).mp (first.mpr six)
    refine ⟨first.mpr six, decide_eq_true (Nat.le_of_eq square), ?_⟩
    rw [← same, square, Nat.min_self]

def smallSpans : List (List Span) :=
  [[Span.lasting 131 911572 (by decide) (by decide),
      Span.lasting 130 107683 (by decide) (by decide)],
    [Span.lasting 12 443911 (by decide) (by decide),
      Span.lasting 4 995291 (by decide) (by decide)]]

def smallFile : List (List Char) :=
  [" [sec = 131, musec = 911572]\n".toList, " [sec = 130, musec = 107683]\n".toList,
    " [sec = 12, musec = 443911]\n".toList, " [sec = 4, musec = 995291]\n".toList]

theorem figures_exact_iff_small :
    timesFile smallSpans = some smallFile ∧
      ∃ first second, scriptFirst (outputFile [1, 10] [1, 5]) smallFile = some first ∧
        script (outputFile [1, 10] [1, 5]) smallFile = some second ∧
        first.ShowsWorkers [1, 10] [1, 5] (measured smallSpans) ∧
        second.ShowsSweep [1, 10] [1, 5] (measured smallSpans) := by
  have columns : ∀ row ∈ smallSpans, row.length = 2 := by
    intro row member
    rcases List.mem_cons.mp member with rfl | last
    · rfl
    · rw [List.mem_singleton.mp last]
      rfl
  have six : ∀ row ∈ smallSpans, ∀ span ∈ row, span.SixDigits := by
    simp only [smallSpans, List.forall_mem_cons, List.not_mem_nil, false_imp_iff, implies_true,
      and_true, Span.SixDigits, Span.Fits]
    decide
  have printed : timesFile smallSpans = some smallFile := by decide +kernel
  obtain ⟨first, second, drawn, drawnSecond, _, both⟩ := @figures_exact_iff [1, 10] [1, 5]
    (by decide) (by decide) (by decide) smallSpans rfl columns smallFile printed
  exact ⟨printed, first, second, drawn, drawnSecond, both.mpr ⟨six, rfl⟩⟩

end Netwurk.Sweep
