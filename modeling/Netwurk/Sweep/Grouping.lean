/-
The plotting script's view of a sweep: the rows of `output.txt` grouped by the
number of workers, and the times of `times.txt` cut into sections of the same length.
-/

import Mathlib.Data.List.SplitBy
import Netwurk.Sweep.TimeDiff

namespace Netwurk.Sweep

open Python

structure Row where
  n : Int
  w : Int
  b : Int
deriving DecidableEq

def Row.line (row : Row) : List Char :=
  showInt row.n ++ ',' :: (showInt row.w ++ ',' :: showInt row.b) ++ ['\n']

/-- The variables of the first loop; `colW` starts with `None`. -/
structure Grouping where
  colW : List (Option Int)
  colB : List (List Int)
  temp : List Int
  temp_row : Option (List (List Char))
deriving DecidableEq

namespace Grouping

def initial : Grouping :=
  { colW := [none]
    colB := []
    temp := []
    temp_row := none }

/-- `int (temp_row[index])`; `none` is an exception. -/
def field (temp_row : List (List Char)) (index : Nat) : Option Int :=
  temp_row[index]?.bind int

def step (grouping : Grouping) (line : List Char) : Option Grouping :=
  let temp_row := split ',' (strip line)
  match field temp_row 1, field temp_row 2 with
  | some w, some b =>
      if some w ≠ grouping.colW.getLast?.join then
        some
          { colW := grouping.colW ++ [some w]
            colB := grouping.colB ++ [grouping.temp]
            temp := [b]
            temp_row := some temp_row }
      else
        some { grouping with
          temp := grouping.temp ++ [b]
          temp_row := some temp_row }
  | _, _ => none

def loop : Grouping → List (List Char) → Option Grouping
  | grouping, [] => some grouping
  | grouping, line :: rest =>
      match grouping.step line with
      | some after => loop after rest
      | none => none

/-- The closing if/else and the slices; without a row there is no `temp_row`. -/
def close (grouping : Grouping) : Option (List (Option Int) × List (List Int)) :=
  match grouping.temp_row with
  | none => none
  | some temp_row =>
      match field temp_row 1 with
      | none => none
      | some w =>
          if some w ≠ grouping.colW.getLast?.join then
            some ((grouping.colW ++ [some w]).drop 1, (grouping.colB ++ [grouping.temp]).drop 1)
          else some (grouping.colW.drop 1, (grouping.colB ++ [grouping.temp]).drop 1)

end Grouping

/-- `colW` and `colB` as the script makes them from the lines of `output.txt`. -/
def groupRows (output : List (List Char)) : Option (List (Option Int) × List (List Int)) :=
  (Grouping.initial.loop output).bind Grouping.close

structure Chunking where
  secs : List ℚ
  time_sections : List (List ℚ)
  cnt : Nat

namespace Chunking

def initial : Chunking :=
  { secs := []
    time_sections := []
    cnt := 0 }

def step (numIters : Nat) (chunking : Chunking) (line : List Char) : Option Chunking :=
  match readTime line with
  | none => none
  | some time =>
      let cnt := chunking.cnt + 1
      let secs := chunking.secs ++ [time]
      if cnt = numIters then
        some
          { secs := []
            time_sections := chunking.time_sections ++ [secs]
            cnt := 0 }
      else some { chunking with secs := secs, cnt := cnt }

def loop (numIters : Nat) : Chunking → List (List Char) → Option Chunking
  | chunking, [] => some chunking
  | chunking, line :: rest =>
      match step numIters chunking line with
      | some after => loop numIters after rest
      | none => none

end Chunking

/-- `time_sections`, for the `colB` found before. -/
def chunkTimes (colB : List (List Int)) (times : List (List Char)) : Option (List (List ℚ)) :=
  match colB[0]? with
  | none => none
  | some first => (Chunking.initial.loop first.length times).map Chunking.time_sections

theorem split_line (row : Row) :
    split ',' (strip row.line) = [showInt row.n, showInt row.w, showInt row.b] := by
  have padded : strip row.line = showInt row.n ++ ',' :: (showInt row.w ++ ',' :: showInt row.b) := by
    have whole := @strip_padded [] (showInt row.n ++ ',' :: (showInt row.w ++ ',' :: showInt row.b))
      ['\n'] (by simp) (List.forall_mem_singleton.mpr rfl) (by simp) (showInt_head row.n _) (by
        intro c member
        rw [List.append_cons, ← List.append_assoc, List.append_cons] at member
        exact showInt_last _ row.b c member)
    exact whole
  rw [padded, split_cons (comma_not_mem_showInt row.n), split_cons (comma_not_mem_showInt row.w),
    split_free (comma_not_mem_showInt row.b)]

namespace Grouping

structure Current (grouping : Grouping) (w : Int) : Prop where
  open_ : grouping.colW.getLast?.join = some w
  row : ∃ temp_row, grouping.temp_row = some temp_row ∧ field temp_row 1 = some w

theorem fields_of_line (row : Row) :
    field (split ',' (strip row.line)) 1 = some row.w ∧
      field (split ',' (strip row.line)) 2 = some row.b := by
  rw [split_line]
  exact ⟨int_showInt row.w, int_showInt row.b⟩

theorem step_same {grouping : Grouping} {row : Row} (current : grouping.Current row.w) :
    ∃ after, grouping.step row.line = some after ∧ after.Current row.w ∧
      after.colW = grouping.colW ∧ after.colB = grouping.colB ∧
      after.temp = grouping.temp ++ [row.b] := by
  obtain ⟨workers, size⟩ := fields_of_line row
  refine ⟨{ grouping with
    temp := grouping.temp ++ [row.b]
    temp_row := some (split ',' (strip row.line)) }, ?_, ⟨current.open_, _, rfl, workers⟩,
      rfl, rfl, rfl⟩
  unfold step
  simp only [workers, size]
  rw [if_neg fun differs => differs current.open_.symm]

theorem step_new {grouping : Grouping} {row : Row}
    (differs : grouping.colW.getLast?.join ≠ some row.w) :
    ∃ after, grouping.step row.line = some after ∧ after.Current row.w ∧
      after.colW = grouping.colW ++ [some row.w] ∧
      after.colB = grouping.colB ++ [grouping.temp] ∧ after.temp = [row.b] := by
  obtain ⟨workers, size⟩ := fields_of_line row
  refine ⟨{
    colW := grouping.colW ++ [some row.w]
    colB := grouping.colB ++ [grouping.temp]
    temp := [row.b]
    temp_row := some (split ',' (strip row.line)) }, ?_, ⟨?_, _, rfl, workers⟩, rfl, rfl, rfl⟩
  · unfold step
    simp only [workers, size]
    rw [if_pos differs.symm]
  · rw [List.getLast?_concat]
    rfl

theorem loop_cons {grouping after : Grouping} {line : List Char} (rest : List (List Char))
    (taken : grouping.step line = some after) : grouping.loop (line :: rest) = after.loop rest := by
  rw [loop, taken]

theorem loop_append (grouping : Grouping) (front back : List (List Char)) :
    grouping.loop (front ++ back) = (grouping.loop front).bind fun middle => middle.loop back := by
  induction front generalizing grouping with
  | nil => rfl
  | cons line front ih =>
      rw [List.cons_append, loop, loop]
      cases grouping.step line with
      | none => rfl
      | some after => exact ih after

theorem loop_same {grouping : Grouping} {w : Int} (current : grouping.Current w)
    {rows : List Row} (same : ∀ row ∈ rows, row.w = w) :
    ∃ after, grouping.loop (rows.map Row.line) = some after ∧ after.Current w ∧
      after.colW = grouping.colW ∧ after.colB = grouping.colB ∧
      after.temp = grouping.temp ++ rows.map Row.b := by
  induction rows generalizing grouping with
  | nil => exact ⟨grouping, rfl, current, rfl, rfl, (List.append_nil _).symm⟩
  | cons row rows ih =>
      have here : row.w = w := same row List.mem_cons_self
      subst here
      obtain ⟨middle, taken, open_, colW, colB, temp⟩ := step_same current
      obtain ⟨after, looped, still, colW', colB', temp'⟩ :=
        ih open_ fun other member => same other (List.mem_cons_of_mem _ member)
      refine ⟨after, ?_, still, colW'.trans colW, colB'.trans colB, ?_⟩
      · rw [List.map_cons, loop_cons _ taken, looped]
      · rw [temp', temp, List.append_assoc]
        rfl

theorem loop_run {grouping : Grouping} {row : Row} {rows : List Row}
    (differs : grouping.colW.getLast?.join ≠ some row.w)
    (same : ∀ other ∈ rows, other.w = row.w) :
    ∃ after, grouping.loop ((row :: rows).map Row.line) = some after ∧ after.Current row.w ∧
      after.colW = grouping.colW ++ [some row.w] ∧
      after.colB ++ [after.temp] =
        grouping.colB ++ [grouping.temp] ++ [(row :: rows).map Row.b] := by
  obtain ⟨middle, taken, open_, colW, colB, temp⟩ := step_new differs
  obtain ⟨after, looped, still, colW', colB', temp'⟩ := loop_same open_ same
  refine ⟨after, ?_, still, colW'.trans colW, ?_⟩
  · rw [List.map_cons, loop_cons _ taken, looped]
  · rw [colB', temp', colB, temp]
    rfl

end Grouping

/-! ### Maximal runs -/

def workersOf (run : List Row) : Option Int := run.head?.map Row.w

/-- The rows cut into runs of one number of workers, none of which can be extended. -/
structure MaximalRuns (rows : List Row) (runs : List (List Row)) : Prop where
  whole : runs.flatten = rows
  nonempty : ∀ run ∈ runs, run ≠ []
  constant : ∀ run ∈ runs, ∀ row ∈ run, workersOf run = some row.w
  maximal : runs.IsChain fun run next => workersOf run ≠ workersOf next

def runs (rows : List Row) : List (List Row) := rows.splitBy fun row next => row.w == next.w

private theorem constant_of_isChain {row : Row} {rows : List Row}
    (chain : (row :: rows).IsChain fun one next => (one.w == next.w) = true) :
    ∀ other ∈ row :: rows, other.w = row.w := by
  induction rows generalizing row with
  | nil =>
      intro other member
      rw [List.mem_singleton.mp member]
  | cons next rows ih =>
      obtain ⟨first, tail⟩ := List.isChain_cons_cons.mp chain
      intro other member
      rcases List.mem_cons.mp member with here | later
      · rw [here]
      · rw [ih tail other later]
        exact (beq_iff_eq.mp first).symm

theorem MaximalRuns.ne_nil {rows : List Row} {groups : List (List Row)}
    (maximal : MaximalRuns rows groups) (nonempty : rows ≠ []) : groups ≠ [] := by
  intro absent
  have whole := maximal.whole
  rw [absent] at whole
  exact nonempty whole.symm

theorem maximalRuns_runs (rows : List Row) : MaximalRuns rows (runs rows) := by
  have constant : ∀ run ∈ runs rows, ∀ row ∈ run, workersOf run = some row.w := by
    intro run member row inside
    have chain := List.isChain_of_mem_splitBy member
    obtain ⟨first, rest, rfl⟩ := List.exists_cons_of_ne_nil (List.ne_nil_of_mem inside)
    rw [workersOf, List.head?_cons, Option.map_some, constant_of_isChain chain row inside]
  refine ⟨List.flatten_splitBy _ _, fun run member => List.ne_nil_of_mem_splitBy member,
    constant, ?_⟩
  apply (List.isChain_getLast_head_splitBy _ rows).imp_of_mem_imp
  intro run next member nextMember border same
  obtain ⟨nonempty, nextNonempty, differs⟩ := border
  rw [constant run member _ (List.getLast_mem nonempty),
    constant next nextMember _ (List.head_mem nextNonempty)] at same
  rw [beq_eq_false_iff_ne] at differs
  exact differs (Option.some.inj same)

theorem MaximalRuns.eq_runs {rows : List Row} {groups : List (List Row)}
    (maximal : MaximalRuns rows groups) : runs rows = groups := by
  apply List.splitBy_eq_iff.mpr
  refine ⟨maximal.whole.symm, fun member => maximal.nonempty [] member rfl, ?_, ?_⟩
  · intro run member
    apply List.Pairwise.isChain
    apply List.pairwise_of_forall_mem_list
    intro row inside other present
    have first := maximal.constant run member row inside
    rw [maximal.constant run member other present] at first
    exact beq_iff_eq.mpr (Option.some.inj first).symm
  · apply maximal.maximal.imp_of_mem_imp
    intro run next member nextMember differs
    have nonempty := maximal.nonempty run member
    have nextNonempty := maximal.nonempty next nextMember
    refine ⟨nonempty, nextNonempty, ?_⟩
    rw [beq_eq_false_iff_ne]
    intro same
    apply differs
    rw [maximal.constant run member _ (List.getLast_mem nonempty),
      maximal.constant next nextMember _ (List.head_mem nextNonempty), same]

theorem loop_runs {grouping : Grouping} {groups : List (List Row)}
    (nonempty : ∀ run ∈ groups, run ≠ [])
    (constant : ∀ run ∈ groups, ∀ row ∈ run, workersOf run = some row.w)
    (maximal : groups.IsChain fun run next => workersOf run ≠ workersOf next)
    (first : ∀ run ∈ groups.head?, grouping.colW.getLast?.join ≠ workersOf run) :
    ∃ after, grouping.loop (groups.flatten.map Row.line) = some after ∧
      after.colW = grouping.colW ++ groups.map workersOf ∧
      after.colB ++ [after.temp] =
        grouping.colB ++ [grouping.temp] ++ groups.map (List.map Row.b) ∧
      (groups ≠ [] → ∃ w, after.Current w) := by
  induction groups generalizing grouping with
  | nil =>
      exact ⟨grouping, rfl, (List.append_nil _).symm, (List.append_nil _).symm,
        fun absent => absurd rfl absent⟩
  | cons run groups ih =>
      obtain ⟨row, rows, rfl⟩ := List.exists_cons_of_ne_nil (nonempty run List.mem_cons_self)
      have workers : workersOf (row :: rows) = some row.w := rfl
      have same : ∀ other ∈ rows, other.w = row.w := by
        intro other member
        have equal := constant _ List.mem_cons_self other (List.mem_cons_of_mem _ member)
        rw [workers] at equal
        exact (Option.some.inj equal).symm
      have differs := first _ rfl
      rw [workers] at differs
      obtain ⟨middle, looped, current, colW, colB⟩ := Grouping.loop_run differs same
      have next : ∀ run ∈ groups.head?, middle.colW.getLast?.join ≠ workersOf run := by
        intro run member
        rw [current.open_, ← workers]
        exact (List.isChain_cons.mp maximal).1 run member
      obtain ⟨after, rest, colW', colB', last⟩ :=
        ih (fun run member => nonempty run (List.mem_cons_of_mem _ member))
          (fun run member => constant run (List.mem_cons_of_mem _ member)) maximal.tail next
      refine ⟨after, ?_, ?_, ?_, ?_⟩
      · rw [List.flatten_cons, List.map_append, Grouping.loop_append, looped]
        exact rest
      · rw [colW', colW, List.append_assoc]
        rfl
      · rw [colB', colB, List.append_assoc]
        rfl
      · intro _
        by_cases more : groups = []
        · subst more
          cases rest
          exact ⟨row.w, current⟩
        · exact last more

theorem groupRows_lines {rows : List Row} (nonempty : rows ≠ []) :
    groupRows (rows.map Row.line) =
      some ((runs rows).map workersOf, (runs rows).map (List.map Row.b)) := by
  have maximal := maximalRuns_runs rows
  have some_runs := maximal.ne_nil nonempty
  obtain ⟨after, looped, colW, colB, last⟩ := @loop_runs Grouping.initial (runs rows)
    maximal.nonempty maximal.constant maximal.maximal (by
      intro run member same
      have inside := List.mem_of_mem_head? member
      obtain ⟨row, rest, rfl⟩ := List.exists_cons_of_ne_nil (maximal.nonempty run inside)
      cases same)
  obtain ⟨w, current⟩ := last some_runs
  obtain ⟨temp_row, read, workers⟩ := current.row
  rw [maximal.whole] at looped
  unfold groupRows
  rw [looped, Option.bind_some, Grouping.close, read]
  simp only [workers]
  rw [if_neg fun differs => differs current.open_.symm, colB, colW]
  rfl

/-! ### Sections of the times -/

namespace Chunking

structure Sound (numIters : Nat) (values : List ℚ) (chunking : Chunking) : Prop where
  whole : chunking.time_sections.flatten ++ chunking.secs = values
  full : ∀ section_ ∈ chunking.time_sections, section_.length = numIters
  counted : chunking.cnt = chunking.secs.length
  short : chunking.secs.length < numIters

theorem Sound.step {numIters : Nat} {values : List ℚ} {chunking : Chunking}
    (sound : chunking.Sound numIters values) {line : List Char} {time : ℚ}
    (read : readTime line = some time) :
    ∃ after, step numIters chunking line = some after ∧
      after.Sound numIters (values ++ [time]) := by
  have counted := sound.counted
  have short := sound.short
  unfold Chunking.step
  rw [read]
  simp only
  by_cases closes : chunking.cnt + 1 = numIters
  · rw [if_pos closes]
    refine ⟨_, rfl, ?_, ?_, rfl, ?_⟩
    · rw [List.flatten_append, List.flatten_singleton, List.append_nil, ← List.append_assoc,
        sound.whole]
    · intro section_ member
      rcases List.mem_append.mp member with earlier | last
      · exact sound.full section_ earlier
      · rw [List.mem_singleton.mp last, List.length_append, List.length_singleton, ← counted,
          closes]
    · exact Nat.lt_of_le_of_lt (Nat.zero_le _) short
  · rw [if_neg closes]
    refine ⟨_, rfl, ?_, sound.full, ?_, ?_⟩
    · rw [← List.append_assoc, sound.whole]
    · simp only [List.length_append, List.length_singleton, counted]
    · simp only [List.length_append, List.length_singleton]
      omega

theorem Sound.loop {numIters : Nat} {values : List ℚ} {chunking : Chunking}
    (sound : chunking.Sound numIters values) {lines : List (List Char)} {times : List ℚ}
    (read : lines.map readTime = times.map some) :
    ∃ after, chunking.loop numIters lines = some after ∧
      after.Sound numIters (values ++ times) := by
  induction lines generalizing chunking values times with
  | nil =>
      cases times with
      | nil => exact ⟨chunking, rfl, by rw [List.append_nil]; exact sound⟩
      | cons => cases read
  | cons line lines ih =>
      cases times with
      | nil => cases read
      | cons time times =>
          obtain ⟨first, rest⟩ := List.cons.inj read
          obtain ⟨middle, taken, soundMiddle⟩ := sound.step first
          obtain ⟨after, looped, soundAfter⟩ := ih soundMiddle rest
          refine ⟨after, ?_, ?_⟩
          · rw [Chunking.loop, taken]
            exact looped
          · rwa [List.append_assoc] at soundAfter

end Chunking

theorem getElem?_flatten_of_length {Item : Type} {lists : List (List Item)} {size : Nat}
    (full : ∀ list ∈ lists, list.length = size) (i : Nat) {j : Nat} (inside : j < size) :
    lists.flatten[i * size + j]? = lists[i]?.bind fun list => list[j]? := by
  induction lists generalizing i with
  | nil => rfl
  | cons list lists ih =>
      have here : list.length = size := full list List.mem_cons_self
      rw [List.flatten_cons]
      cases i with
      | zero =>
          rw [Nat.zero_mul, Nat.zero_add, List.getElem?_append_left (by omega)]
          rfl
      | succ i =>
          have beyond : list.length ≤ (i + 1) * size + j := by
            rw [here, Nat.succ_mul]
            omega
          have rest : (i + 1) * size + j - list.length = i * size + j := by
            rw [here, Nat.succ_mul]
            omega
          rw [List.getElem?_append_right beyond, rest,
            ih fun other member => full other (List.mem_cons_of_mem _ member)]
          rfl

theorem length_flatten_of_length {Item : Type} {lists : List (List Item)} {size : Nat}
    (full : ∀ list ∈ lists, list.length = size) :
    lists.flatten.length = lists.length * size := by
  induction lists with
  | nil => simp
  | cons list lists ih =>
      rw [List.flatten_cons, List.length_append, full list List.mem_cons_self,
        ih fun other member => full other (List.mem_cons_of_mem _ member), List.length_cons,
        Nat.succ_mul, Nat.add_comm]

/-- With one length for all groups and a time for each row, the sections are cut
where the groups are. -/
theorem chunkTimes_sections {colB : List (List Int)} {size : Nat} (some_groups : colB ≠ [])
    (positive : 0 < size) (full : ∀ group ∈ colB, group.length = size)
    {lines : List (List Char)} {times : List ℚ} (read : lines.map readTime = times.map some)
    (total : times.length = colB.length * size) :
    ∃ sections, chunkTimes colB lines = some sections ∧ sections.flatten = times ∧
      sections.length = colB.length ∧ ∀ section_ ∈ sections, section_.length = size := by
  obtain ⟨first, rest, rfl⟩ := List.exists_cons_of_ne_nil some_groups
  have begun : Chunking.initial.Sound size [] :=
    ⟨rfl, fun _ member => (by cases member), rfl, positive⟩
  obtain ⟨after, looped, sound⟩ := begun.loop read
  rw [List.nil_append] at sound
  have whole := sound.whole
  have lengths := congrArg List.length whole
  rw [List.length_append, length_flatten_of_length sound.full, total] at lengths
  have divides := congrArg (· % size) lengths
  simp only [Nat.mul_add_mod_self_right, Nat.mul_mod_left, Nat.mod_eq_of_lt sound.short] at divides
  have closed : after.secs = [] := List.length_eq_zero_iff.mp divides
  rw [closed, List.append_nil] at whole
  rw [divides, Nat.add_zero] at lengths
  refine ⟨after.time_sections, ?_, whole, Nat.eq_of_mul_eq_mul_right positive lengths, sound.full⟩
  unfold chunkTimes
  rw [List.getElem?_cons_zero]
  simp only
  rw [full first List.mem_cons_self, looped]
  rfl

theorem exists_times {lines : List (List Char)}
    (readable : ∀ line ∈ lines, (readTime line).isSome = true) :
    ∃ times : List ℚ, times.length = lines.length ∧ lines.map readTime = times.map some := by
  induction lines with
  | nil => exact ⟨[], rfl, rfl⟩
  | cons line lines ih =>
      obtain ⟨time, read⟩ := Option.isSome_iff_exists.mp (readable line List.mem_cons_self)
      obtain ⟨times, length, rest⟩ :=
        ih fun other member => readable other (List.mem_cons_of_mem _ member)
      exact ⟨time :: times, congrArg Nat.succ length, by rw [List.map_cons, List.map_cons, read, rest]⟩

theorem getElem?_times {lines : List (List Char)} {times : List ℚ}
    (read : lines.map readTime = times.map some) (i : Nat) :
    times[i]? = lines[i]?.bind readTime := by
  induction lines generalizing times i with
  | nil =>
      cases times with
      | nil => rfl
      | cons => cases read
  | cons line lines ih =>
      cases times with
      | nil => cases read
      | cons time times =>
          obtain ⟨first, rest⟩ := List.cons.inj read
          cases i with
          | zero => exact first.symm
          | succ i => exact ih rest i

/-- The script groups a sweep as its rows stand in the file, and cuts the times so
that each is from the line of the number that its row has. -/
theorem sweep_grouped {rows : List Row} (nonempty : rows ≠ []) :
    MaximalRuns rows (runs rows) ∧
      groupRows (rows.map Row.line) =
        some ((runs rows).map workersOf, (runs rows).map (List.map Row.b)) ∧
      ((runs rows).map (List.map Row.b)).flatten = rows.map Row.b ∧
      ∀ (size : Nat) (times : List (List Char)), (∀ run ∈ runs rows, run.length = size) →
        times.length = rows.length → (∀ line ∈ times, (readTime line).isSome = true) →
          ∃ sections, chunkTimes ((runs rows).map (List.map Row.b)) times = some sections ∧
            sections.length = (runs rows).length ∧
            (∀ section_ ∈ sections, section_.length = size) ∧
            ∀ i j, i < (runs rows).length → j < size → i * size + j < rows.length ∧
              (((runs rows).map (List.map Row.b))[i]?.bind fun group => group[j]?) =
                  rows[i * size + j]?.map Row.b ∧
                (sections[i]?.bind fun section_ => section_[j]?) =
                  times[i * size + j]?.bind readTime := by
  have maximal := maximalRuns_runs rows
  have flat : ((runs rows).map (List.map Row.b)).flatten = rows.map Row.b := by
    rw [← List.map_flatten, maximal.whole]
  refine ⟨maximal, groupRows_lines nonempty, flat, ?_⟩
  intro size times even lines readable
  obtain ⟨values, valuesLength, read⟩ := exists_times readable
  have some_runs := maximal.ne_nil nonempty
  have positive : 0 < size := by
    obtain ⟨run, rest, shape⟩ := List.exists_cons_of_ne_nil some_runs
    have member : run ∈ runs rows := by rw [shape]; exact List.mem_cons_self
    rw [← even run member]
    exact List.length_pos_iff.mpr (maximal.nonempty run member)
  have full : ∀ group ∈ (runs rows).map (List.map Row.b), group.length = size := by
    intro group member
    obtain ⟨run, inside, rfl⟩ := List.mem_map.mp member
    rw [List.length_map, even run inside]
  have rowsLength : rows.length = (runs rows).length * size := by
    have lengths := length_flatten_of_length even
    rwa [maximal.whole] at lengths
  obtain ⟨sections, chunked, whole, number, sizes⟩ :=
    @chunkTimes_sections ((runs rows).map (List.map Row.b)) size
      (fun absent => some_runs (List.map_eq_nil_iff.mp absent)) positive full times values read
      (by rw [valuesLength, lines, rowsLength, List.length_map])
  rw [List.length_map] at number
  refine ⟨sections, chunked, number, sizes, ?_⟩
  intro i j inRuns inRun
  refine ⟨?_, ?_, ?_⟩
  · rw [rowsLength]
    calc i * size + j < i * size + size := Nat.add_lt_add_left inRun _
      _ = (i + 1) * size := (Nat.succ_mul i size).symm
      _ ≤ (runs rows).length * size := Nat.mul_le_mul_right size inRuns
  · rw [← getElem?_flatten_of_length full i inRun, flat, List.getElem?_map]
  · rw [← getElem?_flatten_of_length sizes i inRun, whole, getElem?_times read]

def smallSweep : List Row :=
  [{ n := 10000, w := 1, b := 1 }, { n := 10000, w := 1, b := 5 },
    { n := 10000, w := 10, b := 1 }, { n := 10000, w := 10, b := 5 }]

def smallTimes : List (List Char) :=
  [" [sec = 131, musec = 911572]\n".toList, " [sec = 130, musec = 107683]\n".toList,
    " [sec = 12, musec = 443911]\n".toList, " [sec = 12, musec = 433239]\n".toList]

theorem sweep_grouped_small :
    groupRows (smallSweep.map Row.line) = some ([some 1, some 10], [[1, 5], [1, 5]]) ∧
      ∃ sections, chunkTimes [[1, 5], [1, 5]] smallTimes = some sections ∧
        sections.length = 2 ∧ (∀ section_ ∈ sections, section_.length = 2) ∧
        ∀ i j, i < 2 → j < 2 →
          (([[1, 5], [1, 5]] : List (List Int))[i]?.bind fun group => group[j]?) =
              smallSweep[i * 2 + j]?.map Row.b ∧
            (sections[i]?.bind fun section_ => section_[j]?) =
              smallTimes[i * 2 + j]?.bind readTime := by
  have workers : (runs smallSweep).map workersOf = [some 1, some 10] := by decide
  have sizes : (runs smallSweep).map (List.map Row.b) = [[1, 5], [1, 5]] := by decide
  have even : ∀ run ∈ runs smallSweep, run.length = 2 := by decide
  have number : (runs smallSweep).length = 2 := by decide
  have readable : ∀ line ∈ smallTimes, (readTime line).isSome = true := by decide +kernel
  have grouped := sweep_grouped (by decide : smallSweep ≠ [])
  rw [workers, sizes, number] at grouped
  obtain ⟨sections, chunked, total, full, lines⟩ :=
    grouped.2.2.2 2 smallTimes even (by decide) readable
  exact ⟨grouped.2.1, sections, chunked, total, full,
    fun i j inRuns inRun => (lines i j inRuns inRun).2⟩

end Netwurk.Sweep
