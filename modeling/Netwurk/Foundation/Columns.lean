/-
Text in columns of fixed widths, as `setw` with `right` writes them. A text that
fits its column is found again at its place, whatever it contains but a line break.
-/

import Mathlib.Data.List.Basic

namespace Netwurk.Columns

/-- A text that is longer than its column is written whole. -/
def setw (width : Nat) (text : List Char) : List Char :=
  List.replicate (width - text.length) ' ' ++ text

theorem setw_length {width : Nat} {text : List Char} (fits : text.length ≤ width) :
    (setw width text).length = width := by
  rw [setw, List.length_append, List.length_replicate]
  omega

theorem mem_setw {width : Nat} {text : List Char} {c : Char} (member : c ∈ setw width text) :
    c = ' ' ∨ c ∈ text := by
  rcases List.mem_append.mp member with padding | inside
  · exact .inl (List.eq_of_mem_replicate padding)
  · exact .inr inside

def endl (line : List Char) : List Char := line ++ ['\n']

def lines (text : List Char) : List (List Char) := (text.splitOn '\n').dropLast

theorem lines_endl {line : List Char} (unbroken : '\n' ∉ line) (rest : List Char) :
    lines (endl line ++ rest) = line :: lines rest := by
  have first : (endl line ++ rest).splitOn '\n' = line :: rest.splitOn '\n' := by
    rw [endl, List.append_assoc]
    exact List.splitOn_append_cons_self_of_not_mem unbroken rest
  rw [lines, first, List.dropLast_cons_of_ne_nil (List.splitOn_ne_nil '\n' rest)]
  rfl

theorem lines_flatMap {written : List (List Char)} (unbroken : ∀ line ∈ written, '\n' ∉ line) :
    lines (written.flatMap endl) = written := by
  induction written with
  | nil => rfl
  | cons line written ih =>
      rw [List.flatMap_cons, lines_endl (unbroken line List.mem_cons_self),
        ih fun other member => unbroken other (List.mem_cons_of_mem line member)]

def fields : List Nat → List Char → Option (List (List Char))
  | [], [] => some []
  | [], _ :: _ => none
  | width :: widths, line =>
      if line.length < width then none
      else (fields widths (line.drop width)).map fun rest => line.take width :: rest

theorem fields_setw {row : List (Nat × List Char)}
    (fits : ∀ column ∈ row, column.2.length ≤ column.1) :
    fields (row.map Prod.fst) (row.flatMap fun column => setw column.1 column.2) =
      some (row.map fun column => setw column.1 column.2) := by
  induction row with
  | nil => rfl
  | cons column row ih =>
      have whole := setw_length (fits column List.mem_cons_self)
      have rest := ih fun other member => fits other (List.mem_cons_of_mem column member)
      have long : ¬ (setw column.1 column.2 ++
          row.flatMap fun column => setw column.1 column.2).length < column.1 := by
        rw [List.length_append, whole]
        omega
      rw [List.map_cons, List.flatMap_cons, fields, if_neg long, List.drop_left' whole,
        List.take_left' whole, rest]
      rfl

end Netwurk.Columns
