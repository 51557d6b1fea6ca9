/-
The text of the printed histogram. Labels and cells are aligned in columns that are
wide enough for every `int`, so that the text can be read back by its columns.
-/

import Mathlib.Data.Fintype.Fin
import Netwurk.Foundation.Columns
import Netwurk.Histogram.Print

namespace Netwurk.Histogram

open Transition Counters Columns RequestChannel

def decimal (value : Int) : List Char :=
  if value < 0 then '-' :: to_string value.natAbs else to_string value.natAbs

def IsInt (value : Int) : Prop := INT_MIN ≤ value ∧ value ≤ INT_MAX

instance (value : Int) : Decidable (IsInt value) := inferInstanceAs (Decidable (_ ∧ _))

theorem stoi_setw (width : Nat) (text : List Char) : stoi (setw width text) = stoi text := by
  have spaces : (setw width text).dropWhile isspace = text.dropWhile isspace := by
    apply List.dropWhile_append_of_pos
    intro c member
    rw [List.eq_of_mem_replicate member]
    rfl
  rw [stoi, spaces]
  rfl

theorem stoi_decimal {value : Int} (int : IsInt value) : stoi (decimal value) = .ok value := by
  by_cases negative : value < 0
  · have digits : ∀ c ∈ to_string value.natAbs, c.isDigit = true := fun c => digitChar_isDigit
    have unspaced : ('-' :: to_string value.natAbs).dropWhile isspace =
        '-' :: to_string value.natAbs := rfl
    have whole : (to_string value.natAbs).takeWhile Char.isDigit = to_string value.natAbs :=
      List.takeWhile_eq_self_iff.mpr digits
    have magnitude : Nat.ofDigitChars 10 (to_string value.natAbs) 0 = value.natAbs :=
      Nat.ofDigitChars_ten_toDigits
    have nonempty : to_string value.natAbs ≠ [] := Nat.toDigits_ne_nil
    have back : -(value.natAbs : Int) = value := by omega
    rw [decimal, if_pos negative, stoi, unspaced]
    simp only [signed, whole, magnitude, if_neg nonempty, if_true, back]
    exact if_pos int
  · obtain ⟨natural, rfl⟩ := Int.eq_ofNat_of_zero_le (Int.not_lt.mp negative)
    rw [decimal, if_neg negative]
    exact stoi_to_string int.2

theorem decimal_length {value : Int} (int : IsInt value) : (decimal value).length ≤ 11 := by
  have digits : (to_string value.natAbs).length ≤ 10 := by
    refine (Nat.length_toDigits_le_iff (by decide) (by decide)).mpr ?_
    unfold IsInt INT_MIN INT_MAX at int
    omega
  unfold decimal
  split_ifs
  · rw [List.length_cons]
    omega
  · omega

theorem decimal_unbroken (value : Int) : '\n' ∉ decimal value := by
  intro member
  have digit : '\n' ∈ to_string value.natAbs := by
    unfold decimal at member
    split_ifs at member
    · rcases List.mem_cons.mp member with sign | digit
      · cases sign
      · exact digit
    · exact member
  cases digitChar_isDigit digit

def names : List String := ["John Smith", "Jane Smith", "Joe Smith"]

def rule : List Char := List.replicate 58 '-'

def range (i : Nat) : List Char :=
  "[".toList ++ to_string (i * 10) ++ " - ".toList ++ to_string ((i + 1) * 10 - 1) ++ "]:".toList

def printNames (cout : List Char) : List Char :=
  names.foldl (fun cout name => cout ++ setw 15 name.toList) cout

/-- The loop over `j`. A total that overflows is undefined. -/
def printCells (hist : Fin 30 → Int) (i : Fin 10) :
    List (Fin 3) → List Char → (Fin 3 → Int) → Option (List Char × (Fin 3 → Int))
  | [], cout, sum => some (cout, sum)
  | j :: rest, cout, sum =>
      let value := hist (cell j i)
      let total := sum j + value
      if IsInt total then
        printCells hist i rest (cout ++ setw 15 (decimal value)) (Function.update sum j total)
      else none

def printRows (hist : Fin 30 → Int) :
    List (Fin 10) → List Char → (Fin 3 → Int) → Option (List Char × (Fin 3 → Int))
  | [], cout, sum => some (cout, sum)
  | i :: rest, cout, sum =>
      match printCells hist i (List.finRange 3) (cout ++ setw 10 (range i)) sum with
      | some (cout, sum) => printRows hist rest (endl cout) sum
      | none => none

def printTotals (sum : Fin 3 → Int) (cout : List Char) : List Char :=
  (List.finRange 3).foldl (fun cout j => cout ++ setw 15 (decimal (sum j))) cout

def print (histogram : Histogram) : Option (List Char) :=
  let cout := endl (printNames (setw 10 "Range".toList))
  let cout := endl (cout ++ rule)
  match printRows histogram.hist (List.finRange 10) cout fun _ => 0 with
  | some (cout, sum) =>
      let cout := endl (cout ++ rule)
      some (endl (printTotals sum (cout ++ setw 10 "Totals:".toList)))
  | none => none

structure Table where
  cells : Fin 10 → Fin 3 → Int
  totals : Fin 3 → Int

namespace Table

def columns (label : List Char) (numbers : Fin 3 → Int) : List (Nat × List Char) :=
  (10, label) :: (List.finRange 3).map fun j => (15, decimal (numbers j))

def row (label : List Char) (numbers : Fin 3 → Int) : List Char :=
  (columns label numbers).flatMap fun column => setw column.1 column.2

def heading : List Char :=
  setw 10 "Range".toList ++ names.flatMap fun name => setw 15 name.toList

def lines (table : Table) : List (List Char) :=
  [heading, rule] ++ (List.finRange 10).map (fun i : Fin 10 => row (range i) (table.cells i)) ++
    [rule, row "Totals:".toList table.totals]

def text (table : Table) : List Char := table.lines.flatMap endl

structure Ints (table : Table) : Prop where
  cells : ∀ i j, IsInt (table.cells i j)
  totals : ∀ j, IsInt (table.totals j)

end Table

/-! ### Reading a table -/

def readNumber (field : List Char) : Option Int :=
  match stoi field with
  | .ok value => some value
  | .error _ => none

def readRow (line : List Char) : Option (List Int) :=
  match fields [10, 15, 15, 15] line with
  | some (_ :: numbers) => numbers.mapM readNumber
  | _ => none

def readTable (text : List Char) : Option (List (List Int) × List Int) :=
  match lines text with
  | _ :: _ :: rest =>
      match (rest.take 10).mapM readRow, rest.drop 10 with
      | some rows, [_, last] => (readRow last).map fun totals => (rows, totals)
      | _, _ => none
  | _ => none

namespace Table

theorem range_length (i : Fin 10) : (range i).length ≤ 10 := by
  revert i
  decide

theorem readRow_row {label : List Char} (short : label.length ≤ 10) {numbers : Fin 3 → Int}
    (ints : ∀ j, IsInt (numbers j)) :
    readRow (row label numbers) = some ((List.finRange 3).map numbers) := by
  have fits : ∀ column ∈ columns label numbers, column.2.length ≤ column.1 := by
    intro column member
    rcases List.mem_cons.mp member with first | number
    · subst first
      exact short
    · obtain ⟨j, _, rfl⟩ := List.mem_map.mp number
      exact Nat.le_trans (decimal_length (ints j)) (Nat.le_of_ble_eq_true rfl)
  have cut : fields [10, 15, 15, 15] (row label numbers) = _ := fields_setw fits
  have number : ∀ j, readNumber (setw 15 (decimal (numbers j))) = some (numbers j) := by
    intro j
    rw [readNumber, stoi_setw, stoi_decimal (ints j)]
  rw [readRow, cut]
  change List.mapM readNumber [_, _, _] = some [_, _, _]
  simp only [List.mapM_cons, List.mapM_nil, number]
  rfl

theorem mem_row {label : List Char} {numbers : Fin 3 → Int} {c : Char}
    (member : c ∈ row label numbers) :
    c = ' ' ∨ c ∈ label ∨ ∃ j, c ∈ decimal (numbers j) := by
  obtain ⟨column, here, inside⟩ := List.mem_flatMap.mp member
  rcases mem_setw inside with space | text
  · exact .inl space
  · rcases List.mem_cons.mp here with first | number
    · subst first
      exact .inr (.inl text)
    · obtain ⟨j, _, rfl⟩ := List.mem_map.mp number
      exact .inr (.inr ⟨j, text⟩)

theorem row_unbroken {label : List Char} (unbroken : '\n' ∉ label) (numbers : Fin 3 → Int) :
    '\n' ∉ row label numbers := by
  intro member
  rcases mem_row member with space | inside | ⟨j, inside⟩
  · cases space
  · exact unbroken inside
  · exact decimal_unbroken (numbers j) inside

theorem range_unbroken (i : Fin 10) : '\n' ∉ range i := by
  revert i
  decide

theorem lines_unbroken (table : Table) : ∀ line ∈ table.lines, '\n' ∉ line := by
  intro line member
  rcases List.mem_append.mp member with above | below
  · rcases List.mem_append.mp above with top | inside
    · have plain : ∀ line ∈ [heading, rule], '\n' ∉ line := by decide
      exact plain line top
    · obtain ⟨i, _, rfl⟩ := List.mem_map.mp inside
      exact row_unbroken (range_unbroken i) _
  · rcases List.mem_cons.mp below with ruled | last
    · subst ruled
      decide
    · rw [List.mem_singleton.mp last]
      exact row_unbroken (by decide) _

/-- The text of a table is read back as the numbers of the table. -/
theorem readTable_text {table : Table} (ints : table.Ints) :
    readTable table.text = some ((List.finRange 10).map fun i => (List.finRange 3).map
      (table.cells i), (List.finRange 3).map table.totals) := by
  have rows : ∀ bins : List (Fin 10),
      (bins.map fun i : Fin 10 => row (range i) (table.cells i)).mapM readRow =
        some (bins.map fun i => (List.finRange 3).map (table.cells i)) := by
    intro bins
    induction bins with
    | nil => rfl
    | cons i bins ih =>
        rw [List.map_cons, List.mapM_cons, readRow_row (range_length i) (ints.cells i), ih]
        rfl
  have last := @readRow_row "Totals:".toList (by decide) _ ints.totals
  rw [readTable, text, lines_flatMap table.lines_unbroken]
  change (match ((List.finRange 10).map fun i : Fin 10 => row (range i) (table.cells i)).mapM readRow,
    [rule, row "Totals:".toList table.totals] with
    | some rows, [_, last] => (readRow last).map fun totals => (rows, totals)
    | _, _ => none) = _
  rw [rows]
  simp only [last]
  rfl

theorem text_injective {first second : Table} (firstInts : first.Ints) (secondInts : second.Ints)
    (same : first.text = second.text) : first = second := by
  have read := readTable_text firstInts
  rw [same, readTable_text secondInts] at read
  obtain ⟨rows, totals⟩ := Prod.mk.inj (Option.some.inj read)
  have numbers : ∀ {left right : Fin 3 → Int},
      (List.finRange 3).map left = (List.finRange 3).map right → left = right := by
    intro left right equal
    funext j
    exact List.map_inj_left.mp equal j (List.mem_finRange j)
  have cells : first.cells = second.cells := by
    funext i
    exact numbers (List.map_inj_left.mp rows i (List.mem_finRange i)).symm
  cases first
  cases second
  cases cells
  cases numbers totals
  rfl

end Table

theorem exists_cell (target : Fin 30) : ∃ j i, cell j i = target := by
  refine ⟨⟨target.val / 10, by omega⟩, ⟨target.val % 10, by omega⟩, Fin.ext ?_⟩
  exact Nat.div_add_mod target.val 10

def columnTotal (hist : Fin 30 → Int) (rows : List (Fin 10)) (j : Fin 3) : Int :=
  (rows.map fun i => hist (cell j i)).sum

def table (histogram : Histogram) : Table :=
  { cells := fun i j => histogram.hist (cell j i)
    totals := columnTotal histogram.hist (List.finRange 10) }

/-- Every column is added up without an overflow. -/
def Fitting (hist : Fin 30 → Int) : Prop :=
  ∀ front, front <+: List.finRange 10 → ∀ j, IsInt (columnTotal hist front j)

theorem columnTotal_cons (hist : Fin 30 → Int) (i : Fin 10) (rows : List (Fin 10)) (j : Fin 3) :
    columnTotal hist (i :: rows) j = hist (cell j i) + columnTotal hist rows j := by
  rw [columnTotal, List.map_cons, List.sum_cons]
  rfl

theorem forall_column {holds : Fin 3 → Prop} : (∀ j, holds j) ↔ holds 0 ∧ holds 1 ∧ holds 2 := by
  constructor
  · intro all
    exact ⟨all 0, all 1, all 2⟩
  · intro all j
    match j with
    | 0 => exact all.1
    | 1 => exact all.2.1
    | 2 => exact all.2.2

theorem printCells_eq {hist : Fin 30 → Int} (i : Fin 10) (cout : List Char) (sum : Fin 3 → Int) :
    printCells hist i (List.finRange 3) cout sum =
      if ∀ j, IsInt (sum j + hist (cell j i)) then
        some (cout ++ (List.finRange 3).flatMap fun j => setw 15 (decimal (hist (cell j i))),
          fun j => sum j + hist (cell j i))
      else none := by
  have updated : Function.update (Function.update (Function.update sum 0
      (sum 0 + hist (cell 0 i))) 1 (sum 1 + hist (cell 1 i))) 2 (sum 2 + hist (cell 2 i)) =
        fun j => sum j + hist (cell j i) := by
    funext j
    match j with
    | 0 => rfl
    | 1 => rfl
    | 2 => rfl
  have columns : List.finRange 3 = [0, 1, 2] := rfl
  have second : Function.update sum 0 (sum 0 + hist (cell 0 i)) 1 = sum 1 := rfl
  have third : Function.update (Function.update sum 0 (sum 0 + hist (cell 0 i))) 1
      (sum 1 + hist (cell 1 i)) 2 = sum 2 := rfl
  rw [columns]
  simp only [forall_column, printCells, second, third, updated, List.append_assoc,
    List.flatMap_cons, List.flatMap_nil, List.append_nil]
  by_cases zero : IsInt (sum 0 + hist (cell 0 i))
  · by_cases one : IsInt (sum 1 + hist (cell 1 i))
    · simp only [zero, one, true_and, if_true]
    · simp only [zero, one, false_and, and_false, if_true, if_false]
  · simp only [zero, false_and, if_false]

theorem printRows_eq {hist : Fin 30 → Int} {rows : List (Fin 10)} (cout : List Char)
    {sum : Fin 3 → Int}
    (fitting : ∀ front, front <+: rows → ∀ j, IsInt (sum j + columnTotal hist front j)) :
    printRows hist rows cout sum =
      some (cout ++ (rows.map fun i : Fin 10 =>
        Table.row (range i) fun j => hist (cell j i)).flatMap endl,
        fun j => sum j + columnTotal hist rows j) := by
  induction rows generalizing cout sum with
  | nil => simp [printRows, columnTotal]
  | cons i rows ih =>
      have here : ∀ j, IsInt (sum j + hist (cell j i)) := by
        intro j
        have total := fitting [i] (List.prefix_append [i] rows) j
        rwa [columnTotal_cons, columnTotal, List.map_nil, List.sum_nil, add_zero] at total
      have ahead : ∀ front, front <+: rows → ∀ j,
          IsInt (sum j + hist (cell j i) + columnTotal hist front j) := by
        intro front before j
        have total := fitting (i :: front) ((List.prefix_cons_inj i).mpr before) j
        rwa [columnTotal_cons, ← add_assoc] at total
      rw [printRows, printCells_eq, if_pos here]
      simp only [ih _ ahead]
      simp [Table.row, Table.columns, endl, List.flatMap_map, columnTotal_cons, add_assoc]

theorem fitting_of_printRows {hist : Fin 30 → Int} {rows : List (Fin 10)} {cout : List Char}
    {sum : Fin 3 → Int} (ints : ∀ j, IsInt (sum j)) {out : List Char × (Fin 3 → Int)}
    (printed : printRows hist rows cout sum = some out) :
    ∀ front, front <+: rows → ∀ j, IsInt (sum j + columnTotal hist front j) := by
  induction rows generalizing cout sum with
  | nil =>
      intro front before j
      rw [List.prefix_nil.mp before]
      simpa [columnTotal] using ints j
  | cons i rows ih =>
      intro front before j
      rw [printRows, printCells_eq] at printed
      by_cases here : ∀ j, IsInt (sum j + hist (cell j i))
      · rw [if_pos here] at printed
        cases front with
        | nil => simpa [columnTotal] using ints j
        | cons first front =>
            obtain ⟨rfl, behind⟩ := List.cons_prefix_cons.mp before
            have total := ih here printed front behind j
            rwa [add_assoc, ← columnTotal_cons] at total
      · rw [if_neg here] at printed
        cases printed

/-- `print` writes the table of the histogram, unless a total overflows on the way. -/
theorem print_eq_some_iff {histogram : Histogram} {text : List Char} :
    histogram.print = some text ↔ Fitting histogram.hist ∧ text = histogram.table.text := by
  have zero : ∀ total : Int, (0 : Int) + total = total := zero_add
  have written (fitting : Fitting histogram.hist) :
      histogram.print = some histogram.table.text := by
    simp only [print]
    rw [printRows_eq]
    · simp only [zero]
      simp [table, Table.text, Table.lines, Table.row, Table.columns, Table.heading, printNames,
        printTotals, names, endl, List.finRange_succ]
    · intro front before j
      rw [zero]
      exact fitting front before j
  constructor
  · intro printed
    have fitting : Fitting histogram.hist := by
      intro front before j
      simp only [print] at printed
      split at printed
      · rename_i rows
        have total := fitting_of_printRows (fun _ => by decide) rows front before j
        rwa [zero] at total
      · cases printed
    refine ⟨fitting, ?_⟩
    rw [written fitting] at printed
    exact (Option.some.inj printed).symm
  · intro both
    obtain ⟨fitting, rfl⟩ := both
    exact written fitting

theorem print_congr {first second : Histogram} (same : first.hist = second.hist) :
    first.print = second.print := by
  unfold print
  rw [same]

/-! ### Printing while the cells change -/

def written (entry : (Fin 10 × Fin 3) × Int) : List Char :=
  (if entry.1.2 = 0 then setw 10 (range entry.1.1) else []) ++ setw 15 (decimal entry.2) ++
    (if entry.1.2 = 2 then ['\n'] else [])

namespace Printing

/-- What the iterations read when nothing happens in between. -/
def readAll (hist : Fin 30 → Int) : List (Fin 10 × Fin 3) →
    List ((Fin 10 × Fin 3) × Int) → (Fin 3 → Int) →
      Option (List ((Fin 10 × Fin 3) × Int) × (Fin 3 → Int))
  | [], table, sum => some (table, sum)
  | (i, j) :: rest, table, sum =>
      let total := sum j + hist (cell j i)
      if IsInt total then
        readAll hist rest (table ++ [((i, j), hist (cell j i))]) (Function.update sum j total)
      else none

def opening : List Char := endl Table.heading ++ endl rule

def closing (sum : Fin 3 → Int) : List Char :=
  endl rule ++ endl (Table.row "Totals:".toList sum)

def text (state : Printing) : List Char :=
  opening ++ state.table.flatMap written ++ closing state.sum

def alone (iterations : List (Fin 10 × Fin 3)) : List Label :=
  iterations.flatMap fun _ => [.printCell, .addCell]

theorem run_iteration {histogram other : Histogram} {i : Fin 10} {j : Fin 3}
    {rest : List (Fin 10 × Fin 3)} {table : List ((Fin 10 × Fin 3) × Int)} {sum : Fin 3 → Int}
    (labels : List Label) :
    (printing other).run
        { histogram := histogram, ahead := (i, j) :: rest, shown := false, table := table, sum := sum }
        (.printCell :: .addCell :: labels) =
      if IsInt (sum j + histogram.hist (cell j i)) then
        (printing other).run
          { histogram := histogram
            ahead := rest
            shown := false
            table := table ++ [((i, j), histogram.hist (cell j i))]
            sum := Function.update sum j (sum j + histogram.hist (cell j i)) } labels
      else none := by
  by_cases int : IsInt (sum j + histogram.hist (cell j i))
  · have bounds : INT_MIN ≤ sum j + histogram.hist (cell j i) ∧
        sum j + histogram.hist (cell j i) ≤ INT_MAX := int
    simp only [System.run, printing, next, if_pos bounds, if_pos int]
  · have bounds : ¬ (INT_MIN ≤ sum j + histogram.hist (cell j i) ∧
        sum j + histogram.hist (cell j i) ≤ INT_MAX) := int
    simp only [System.run, printing, next, if_neg bounds, if_neg int]

theorem run_alone {histogram other : Histogram} (iterations : List (Fin 10 × Fin 3))
    (table : List ((Fin 10 × Fin 3) × Int)) (sum : Fin 3 → Int) :
    (printing other).run
        { histogram := histogram, ahead := iterations, shown := false, table := table, sum := sum }
        (alone iterations) =
      (readAll histogram.hist iterations table sum).map fun read =>
        { histogram := histogram, ahead := [], shown := false, table := read.1, sum := read.2 } := by
  induction iterations generalizing table sum with
  | nil => rfl
  | cons iteration rest ih =>
      obtain ⟨i, j⟩ := iteration
      rw [alone, List.flatMap_cons, List.cons_append, List.cons_append, List.nil_append,
        run_iteration, readAll]
      split_ifs
      · exact ih _ _
      · rfl

theorem printRows_eq_readAll {hist : Fin 30 → Int} (rows : List (Fin 10)) (cout : List Char)
    (table : List ((Fin 10 × Fin 3) × Int)) (sum : Fin 3 → Int) :
    printRows hist rows (cout ++ table.flatMap written) sum =
      (readAll hist (rows.flatMap fun i => (List.finRange 3).map fun j => (i, j)) table sum).map
        fun read => (cout ++ read.1.flatMap written, read.2) := by
  induction rows generalizing table sum with
  | nil => rfl
  | cons i rows ih =>
      have columns : (List.finRange 3).map (fun j => (i, j)) = [(i, 0), (i, 1), (i, 2)] := rfl
      have inner : List.finRange 3 = [0, 1, 2] := rfl
      rw [printRows, List.flatMap_cons, columns, inner]
      simp only [printCells, List.cons_append, List.nil_append, readAll]
      split_ifs
      · refine Eq.trans ?_ (ih _ _)
        change printRows hist rows (endl _) _ = _
        congr 1
        simp [written, endl]
      · rfl
      · rfl
      · rfl

theorem print_eq_run (histogram : Histogram) :
    histogram.print =
      ((printing histogram).run (begin histogram) (alone iterations)).map text := by
  have rows := @printRows_eq_readAll histogram.hist (List.finRange 10) opening [] fun _ => 0
  have heading : endl (endl (printNames (setw 10 "Range".toList)) ++ rule) =
      opening ++ List.flatMap written [] := by
    simp [opening, endl, Table.heading, printNames, names]
  have ran := @run_alone histogram histogram iterations [] fun _ => 0
  simp only [print, heading]
  rw [rows, begin, ran, iterations]
  cases readAll histogram.hist _ [] (fun _ => 0) with
  | none => rfl
  | some read =>
      simp [text, closing, Table.row, Table.columns, printTotals, endl, List.finRange_succ]

variable {histogram : Histogram} {state after : Printing}

theorem ints_of_reachable (ints : ∀ target, IsInt (histogram.hist target))
    (reached : (printing histogram).Reachable state) :
    (∀ target, IsInt (state.histogram.hist target)) ∧ ∀ j, IsInt (state.sum j) := by
  apply reached.invariant
  · intro begun started
    subst started
    have zero : IsInt 0 := by decide
    exact ⟨ints, fun _ => zero⟩
  · intro before label later _ held taken
    obtain ⟨cells, sums⟩ := held
    cases label with
    | update patient response =>
        obtain ⟨target, map, _, room, rfl⟩ := next_update taken
        refine ⟨fun other => ?_, sums⟩
        have grown := le_bump room other
        refine ⟨Int.le_trans (cells other).1 grown, ?_⟩
        change bump before.histogram.hist target other ≤ INT_MAX
        by_cases same : other = target
        · subst same
          simp only [bump, Function.update_self]
          exact increment_le_INT_MAX (cells other).2
        · simp only [bump, Function.update_of_ne same]
          exact (cells other).2
    | printCell =>
        obtain ⟨i, j, rest, shown, ahead, rfl⟩ := next_printCell taken
        exact ⟨cells, sums⟩
    | addCell =>
        have added : next before .addCell = some later := taken
        obtain ⟨i, j, rest, shown, ahead, rfl⟩ := next_addCell taken
        refine ⟨cells, fun other => ?_⟩
        by_cases same : other = j
        · subst same
          simp only [Function.update_self]
          simp only [next, shown, ahead] at added
          split_ifs at added with int
          exact int
        · simp only [Function.update_of_ne same]
          exact sums other

theorem exists_values {Key Value : Type} [DecidableEq Key] (default : Value)
    {entries : List (Key × Value)} (once : (entries.map Prod.fst).Nodup) :
    ∃ value : Key → Value, entries = (entries.map Prod.fst).map fun key => (key, value key) := by
  induction entries with
  | nil => exact ⟨fun _ => default, rfl⟩
  | cons entry entries ih =>
      obtain ⟨fresh, rest⟩ := List.nodup_cons.mp once
      obtain ⟨value, same⟩ := ih rest
      refine ⟨Function.update value entry.1 entry.2, ?_⟩
      rw [List.map_cons, List.map_cons, Function.update_self]
      congr 1
      refine same.trans (List.map_congr_left ?_)
      intro key member
      have other : key ≠ entry.1 := by
        intro equal
        subst equal
        exact fresh member
      rw [Function.update_of_ne other]

theorem iterations_nodup : iterations.Nodup := by decide

theorem flatMap_written (cells : Fin 10 → Fin 3 → Int) :
    (iterations.map fun iteration => (iteration, cells iteration.1 iteration.2)).flatMap written =
      ((List.finRange 10).map fun i : Fin 10 => Table.row (range i) (cells i)).flatMap endl := by
  have rows : ∀ rows : List (Fin 10),
      ((rows.flatMap fun i => (List.finRange 3).map fun j => (i, j)).map fun iteration =>
        (iteration, cells iteration.1 iteration.2)).flatMap written =
      (rows.map fun i : Fin 10 => Table.row (range i) (cells i)).flatMap endl := by
    intro rows
    induction rows with
    | nil => rfl
    | cons i rows ih =>
        have columns : List.finRange 3 = [0, 1, 2] := rfl
        rw [List.flatMap_cons, List.map_append, List.flatMap_append, ih, List.map_cons,
          List.flatMap_cons]
        simp [columns, written, Table.row, Table.columns, endl]
  exact rows (List.finRange 10)

/-- Whatever is counted in the meantime, the text is read back as the values of the
first reads, row by row, and the totals of the second reads. -/
theorem text_read_back (ints : ∀ target, IsInt (histogram.hist target))
    (reached : (printing histogram).Reachable after) (finished : after.ahead = []) :
    ∃ cells : Fin 10 → Fin 3 → Int,
      after.table = iterations.map (fun iteration => (iteration, cells iteration.1 iteration.2)) ∧
      readTable after.text = some ((List.finRange 10).map fun i => (List.finRange 3).map (cells i),
        (List.finRange 3).map after.sum) := by
  have sound := sound_of_reachable reached
  have order : after.table.map Prod.fst = iterations := by
    have order := sound.order
    rw [finished] at order
    simpa using order
  have once : (after.table.map Prod.fst).Nodup := by
    rw [order]
    exact iterations_nodup
  obtain ⟨value, same⟩ := exists_values 0 once
  rw [order] at same
  have later := ints_of_reachable ints reached
  have shown : Table.Ints { cells := fun i j => value (i, j), totals := after.sum } := by
    refine ⟨fun i j => ?_, later.2⟩
    have member : ((i, j), value (i, j)) ∈ after.table := by
      rw [same]
      refine List.mem_map.mpr ⟨(i, j), ?_, rfl⟩
      exact List.mem_flatMap.mpr ⟨i, List.mem_finRange i,
        List.mem_map.mpr ⟨j, List.mem_finRange j, rfl⟩⟩
    obtain ⟨above, below⟩ := sound.between _ member
    exact ⟨Int.le_trans (ints _).1 above, Int.le_trans below (later.1 _).2⟩
  refine ⟨fun i j => value (i, j), same, ?_⟩
  have whole : after.text =
      Table.text { cells := fun i j => value (i, j), totals := after.sum } := by
    rw [text, same, flatMap_written fun i j => value (i, j)]
    simp [opening, closing, Table.text, Table.lines, List.flatMap_append]
  rw [whole]
  exact Table.readTable_text shown

/-- A reply counted between the two reads of its cell: the text is sound and shows a
total that its column does not have. -/
theorem text_read_back_overtaken :
    ∃ (after : Printing) (cells : Fin 10 → Fin 3 → Int), (printing fresh).run (begin fresh)
        (.printCell :: .update .john "5" :: .addCell :: remaining) = some after ∧
      readTable after.text = some ((List.finRange 10).map fun i => (List.finRange 3).map (cells i),
        [1, 0, 0]) := by
  have ran : ((printing fresh).run (begin fresh)
      (.printCell :: .update .john "5" :: .addCell :: remaining)).map
        (fun after => (after.ahead, (List.finRange 3).map after.sum)) = some ([], [1, 0, 0]) := by
    decide +kernel
  obtain ⟨after, run, last⟩ := Option.map_eq_some_iff.mp ran
  obtain ⟨finished, totals⟩ := Prod.mk.inj last
  have zero : IsInt 0 := by decide
  have ints : ∀ target, IsInt (fresh.hist target) := fun _ => zero
  have started : (printing fresh).Reachable (begin fresh) := .begin rfl
  obtain ⟨cells, _, read⟩ := text_read_back ints (started.of_run run) finished
  rw [totals] at read
  exact ⟨after, cells, run, read⟩

end Printing

end Netwurk.Histogram
