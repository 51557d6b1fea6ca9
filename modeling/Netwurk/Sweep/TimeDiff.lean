/-
The elapsed time, from the client that prints it to the script that plots it. The
client prints seconds and microseconds as two integers; the script puts a decimal
point between the two strings of digits.
-/

import Mathlib.Tactic.NormNum
import Netwurk.Sweep.Python

namespace Netwurk.Sweep

open Python

/-- A normalised `timeval` with 64-bit seconds. -/
structure Timeval where
  tv_sec : Int
  tv_usec : Int
  sec_fits : -9223372036854775808 ≤ tv_sec ∧ tv_sec ≤ 9223372036854775807
  normalised : 0 ≤ tv_usec ∧ tv_usec < 1000000

/-- A value that is no `long` of 64 bits is an overflow, which is undefined. -/
def toLong (value : Int) : Option Int :=
  if -9223372036854775808 ≤ value ∧ value ≤ 9223372036854775807 then some value else none

def secMusec (tp1 tp2 : Timeval) : Option (Int × Int) :=
  match toLong (tp2.tv_sec - tp1.tv_sec) with
  | none => none
  | some sec =>
      let musec := tp2.tv_usec - tp1.tv_usec
      if musec < 0 then
        match toLong (sec - 1) with
        | none => none
        | some sec => some (sec, musec + 1000000)
      else some (sec, musec)

def get_time_diff (tp1 tp2 : Timeval) : Option (List Char) :=
  match secMusec tp1 tp2 with
  | none => none
  | some (sec, musec) => some
      (" [sec = ".toList ++ showInt sec ++ ", musec = ".toList ++ showInt musec ++ "]".toList)

/-- The number the script makes of a line; `none` is an exception. -/
def readTime (line : List Char) : Option ℚ :=
  let temp_row := split ',' (strip line)
  match temp_row[0]?, temp_row[1]? with
  | some first, some second => float (first.drop 7 ++ ['.'] ++ sliceToLast 9 second)
  | _, _ => none

structure Span where
  tp1 : Timeval
  tp2 : Timeval
  ordered : tp1.tv_sec < tp2.tv_sec ∨ tp1.tv_sec = tp2.tv_sec ∧ tp1.tv_usec ≤ tp2.tv_usec

namespace Span

def elapsed (span : Span) : ℚ :=
  ((span.tp2.tv_sec - span.tp1.tv_sec : Int) : ℚ) +
    ((span.tp2.tv_usec - span.tp1.tv_usec : Int) : ℚ) / 1000000

/-- The line in the file, with the end of line that `endl` adds. -/
def line (span : Span) : Option (List Char) :=
  (get_time_diff span.tp1 span.tp2).map (· ++ ['\n'])

def read (span : Span) : Option ℚ := span.line.bind readTime

def wholeSeconds (span : Span) : Int :=
  span.tp2.tv_sec - span.tp1.tv_sec - if span.tp2.tv_usec < span.tp1.tv_usec then 1 else 0

def microseconds (span : Span) : Int :=
  (span.tp2.tv_usec - span.tp1.tv_usec) % 1000000

def Fits (span : Span) : Prop :=
  span.tp2.tv_sec - span.tp1.tv_sec ≤ 9223372036854775807

instance (span : Span) : Decidable span.Fits := inferInstanceAs (Decidable (_ ≤ _))

/-- It is, and the microseconds have six digits or are 0. -/
def SixDigits (span : Span) : Prop :=
  span.Fits ∧ (span.microseconds = 0 ∨ 100000 ≤ span.microseconds)

end Span

/-! ### What the script reads -/

theorem readTime_printed (sec musec : Int) :
    readTime (" [sec = ".toList ++ showInt sec ++ ", musec = ".toList ++ showInt musec ++
      "]".toList ++ ['\n']) = float (showInt sec ++ '.' :: showInt musec) := by
  have regroup : " [sec = ".toList ++ showInt sec ++ ", musec = ".toList ++ showInt musec ++
      "]".toList ++ ['\n'] = [' '] ++ (("[sec = ".toList ++ showInt sec) ++
        ',' :: (" musec = ".toList ++ showInt musec ++ [']']) ++ ['\n']) := by
    simp
  have stripped : strip ([' '] ++ (("[sec = ".toList ++ showInt sec) ++
      ',' :: (" musec = ".toList ++ showInt musec ++ [']']) ++ ['\n'])) =
        ("[sec = ".toList ++ showInt sec) ++
          ',' :: (" musec = ".toList ++ showInt musec ++ [']']) := by
    apply strip_padded
    · exact List.forall_mem_singleton.mpr rfl
    · exact List.forall_mem_singleton.mpr rfl
    · simp
    · intro c member
      cases member
      decide
    · intro c member
      rw [← List.cons_append, ← List.append_assoc, List.getLast?_concat] at member
      cases member
      decide
  have frontFree : ',' ∉ "[sec = ".toList ++ showInt sec := by
    rw [List.mem_append, not_or]
    exact ⟨by decide, comma_not_mem_showInt sec⟩
  have backFree : ',' ∉ " musec = ".toList ++ showInt musec ++ [']'] := by
    rw [List.mem_append, List.mem_append, not_or, not_or]
    exact ⟨⟨by decide, comma_not_mem_showInt musec⟩, by decide⟩
  unfold readTime
  rw [regroup, stripped, split_cons frontFree, split_free backFree]
  have seconds : ("[sec = ".toList ++ showInt sec).drop 7 = showInt sec :=
    List.drop_left' rfl
  have micros : sliceToLast 9 (" musec = ".toList ++ showInt musec ++ [']']) = showInt musec := by
    unfold sliceToLast
    rw [List.dropLast_concat]
    exact List.drop_left' rfl
  change float (("[sec = ".toList ++ showInt sec).drop 7 ++ ['.'] ++
    sliceToLast 9 (" musec = ".toList ++ showInt musec ++ [']'])) = _
  rw [seconds, micros, List.append_assoc]
  rfl

namespace Span

theorem wholeSeconds_nonneg (span : Span) : 0 ≤ span.wholeSeconds := by
  have ordered := span.ordered
  unfold wholeSeconds
  split_ifs <;> omega

theorem microseconds_bounds (span : Span) :
    0 ≤ span.microseconds ∧ span.microseconds < 1000000 := by
  unfold microseconds
  omega

theorem secMusec_eq {span : Span} (fits : span.Fits) :
    secMusec span.tp1 span.tp2 = some (span.wholeSeconds, span.microseconds) := by
  have first := span.tp1.normalised
  have second := span.tp2.normalised
  have ordered := span.ordered
  unfold Fits at fits
  have long : toLong (span.tp2.tv_sec - span.tp1.tv_sec) =
      some (span.tp2.tv_sec - span.tp1.tv_sec) := if_pos (by omega)
  unfold secMusec wholeSeconds microseconds
  rw [long]
  by_cases borrow : span.tp2.tv_usec < span.tp1.tv_usec
  · have negative : span.tp2.tv_usec - span.tp1.tv_usec < 0 := by omega
    have shorter : toLong (span.tp2.tv_sec - span.tp1.tv_sec - 1) =
        some (span.tp2.tv_sec - span.tp1.tv_sec - 1) := if_pos (by omega)
    have rest : (span.tp2.tv_usec - span.tp1.tv_usec) % 1000000 =
        span.tp2.tv_usec - span.tp1.tv_usec + 1000000 := by omega
    simp only [if_pos negative, if_pos borrow, shorter, rest]
  · have positive : ¬ span.tp2.tv_usec - span.tp1.tv_usec < 0 := by omega
    have rest : (span.tp2.tv_usec - span.tp1.tv_usec) % 1000000 =
        span.tp2.tv_usec - span.tp1.tv_usec := by omega
    simp only [if_neg positive, if_neg borrow, rest, Int.sub_zero]

theorem line_of_overflow {span : Span} (overflows : ¬ span.Fits) : span.line = none := by
  have long : toLong (span.tp2.tv_sec - span.tp1.tv_sec) = none :=
    if_neg fun fits => overflows fits.2
  unfold line get_time_diff secMusec
  rw [long]
  rfl

theorem elapsed_eq (span : Span) :
    span.elapsed = (span.wholeSeconds : ℚ) + (span.microseconds : ℚ) / 1000000 := by
  have first := span.tp1.normalised
  have second := span.tp2.normalised
  have exact_ : (span.tp2.tv_sec - span.tp1.tv_sec) * 1000000 +
      (span.tp2.tv_usec - span.tp1.tv_usec) =
        span.wholeSeconds * 1000000 + span.microseconds := by
    unfold wholeSeconds microseconds
    split_ifs <;> omega
  have rational := congrArg (fun value : Int => (value : ℚ) / 1000000) exact_
  simp only [Int.cast_add, Int.cast_mul, Int.cast_ofNat, add_div] at rational
  unfold elapsed
  rw [mul_div_cancel_right₀ _ (by norm_num), mul_div_cancel_right₀ _ (by norm_num)] at rational
  exact rational

def places (span : Span) : Nat := (Nat.toDigits 10 span.microseconds.natAbs).length

theorem read_eq {span : Span} (fits : span.Fits) :
    span.read = some ((span.wholeSeconds.natAbs : ℚ) +
      span.microseconds.natAbs / (10 : ℚ) ^ span.places) := by
  have bounds := span.microseconds_bounds
  have unsigned : showInt span.microseconds = Nat.toDigits 10 span.microseconds.natAbs :=
    if_neg (Int.not_lt.mpr bounds.1)
  unfold read line get_time_diff
  rw [secMusec_eq fits]
  simp only [Option.map_some, Option.bind_some]
  rw [readTime_printed, unsigned, float_decimal, if_neg (Int.not_lt.mpr span.wholeSeconds_nonneg)]
  rfl

theorem places_eq_six (span : Span) : span.places = 6 ↔ 100000 ≤ span.microseconds := by
  have bounds := span.microseconds_bounds
  have upper : span.places ≤ 6 :=
    (Nat.length_toDigits_le_iff (by decide) (by decide)).mpr (by omega)
  have lower : span.places ≤ 5 ↔ span.microseconds.natAbs < 100000 :=
    Nat.length_toDigits_le_iff (by decide) (by decide)
  omega

/-- The fraction that is read is the microseconds' exactly when they have six digits. -/
theorem fraction_eq_iff (span : Span) :
    (span.microseconds.natAbs : ℚ) / (10 : ℚ) ^ span.places =
        (span.microseconds : ℚ) / 1000000 ↔
      span.microseconds = 0 ∨ 100000 ≤ span.microseconds := by
  have bounds := span.microseconds_bounds
  have cast : (span.microseconds.natAbs : ℚ) = (span.microseconds : ℚ) := by
    rw [← Int.cast_natCast, Int.natAbs_of_nonneg bounds.1]
  rw [cast, ← span.places_eq_six]
  constructor
  · intro same
    by_cases zero : span.microseconds = 0
    · exact .inl zero
    · right
      have nonzero : (span.microseconds : ℚ) ≠ 0 := by exact_mod_cast zero
      rw [div_eq_div_iff (by positivity) (by norm_num)] at same
      have scales : (10 : ℚ) ^ span.places = (10 : ℚ) ^ 6 := by
        rw [← mul_left_cancel₀ nonzero same]
        norm_num
      exact pow_right_injective₀ (by norm_num) (by norm_num) scales
  · intro either
    rcases either with zero | six
    · rw [zero]
      simp
    · rw [six]
      norm_num

theorem read_eq_elapsed_iff (span : Span) : span.read = some span.elapsed ↔ span.SixDigits := by
  have nonneg := span.wholeSeconds_nonneg
  by_cases fits : span.Fits
  · have whole : (span.wholeSeconds.natAbs : ℚ) = (span.wholeSeconds : ℚ) := by
      rw [← Int.cast_natCast, Int.natAbs_of_nonneg nonneg]
    rw [read_eq fits, elapsed_eq, whole, Option.some.injEq, SixDigits, and_iff_right fits,
      ← span.fraction_eq_iff]
    exact add_right_inj _
  · have unread : span.read = none := by
      unfold read
      rw [line_of_overflow fits]
      rfl
    rw [unread]
    exact iff_of_false (Option.some_ne_none _).symm fun six => fits six.1

/-- The number read is the time measured exactly when the microseconds are printed
with six digits, and then a longer run is read as a longer one. -/
theorem read_exact_iff_six_digits (span : Span) :
    (span.read = some span.elapsed ↔ span.SixDigits) ∧
      ∀ longer : Span, span.SixDigits → longer.SixDigits → span.elapsed < longer.elapsed →
        ∃ shortRead longRead, span.read = some shortRead ∧ longer.read = some longRead ∧
          shortRead < longRead := by
  refine ⟨span.read_eq_elapsed_iff, ?_⟩
  intro longer six longSix less
  exact ⟨_, _, span.read_eq_elapsed_iff.mpr six, longer.read_eq_elapsed_iff.mpr longSix, less⟩

def lasting (sec musec : Nat) (secFits : sec ≤ 9223372036854775807) (normal : musec < 1000000) :
    Span :=
  { tp1 :=
      { tv_sec := 0
        tv_usec := 0
        sec_fits := by decide
        normalised := by decide }
    tp2 :=
      { tv_sec := sec
        tv_usec := musec
        sec_fits := by omega
        normalised := by omega }
    ordered := by
      simp only
      omega }

theorem read_exact_iff_six_digits_recorded :
    let short := lasting 4 995291 (by decide) (by decide)
    let long := lasting 130 107683 (by decide) (by decide)
    short.read = some short.elapsed ∧
      ∃ shortRead longRead, short.read = some shortRead ∧ long.read = some longRead ∧
        shortRead < longRead := by
  intro short long
  have shortSix : short.SixDigits := ⟨by decide, .inr (by decide)⟩
  have longSix : long.SixDigits := ⟨by decide, .inr (by decide)⟩
  have both := read_exact_iff_six_digits short
  exact ⟨both.1.mpr shortSix, both.2 long shortSix longSix (by decide +kernel)⟩

/-- The run of 5.005854 s is read as 5.5854, and so as longer than the run of
5.017897 s, which is read as 5.17897. Both stand in the recorded times. -/
theorem recorded_times_misread :
    let short := lasting 5 5854 (by decide) (by decide)
    let long := lasting 5 17897 (by decide) (by decide)
    short.line = some " [sec = 5, musec = 5854]\n".toList ∧
      short.read = some (55854 / 10000) ∧ short.read ≠ some short.elapsed ∧
      long.read = some (517897 / 100000) ∧ short.elapsed < long.elapsed := by
  decide +kernel

end Span

end Netwurk.Sweep
