/-
The Python text functions that the plotting script reads its files with, and what
they make of a decimal number. A string is the list of its characters, and a float
is the exact number that its literal denotes.
-/

import Mathlib.Algebra.Order.Field.Rat
import Mathlib.Algebra.Order.Field.Basic
import Mathlib.Data.List.DropRight
import Mathlib.Data.List.TakeWhile
import Mathlib.Tactic.Ring
import Mathlib.Tactic.FieldSimp
import Mathlib.Tactic.Linarith

namespace Netwurk.Python

/-- The characters that `strip` removes; those beyond ASCII are the ones Unicode
counts as white space. -/
def spaces : List Char :=
  [' ', '\t', '\n', '\x0b', '\x0c', '\r', '\x1c', '\x1d', '\x1e', '\x1f', '\u0085', '\u00a0',
    '\u1680', '\u2000', '\u2001', '\u2002', '\u2003', '\u2004', '\u2005', '\u2006', '\u2007',
    '\u2008', '\u2009', '\u200a', '\u2028', '\u2029', '\u202f', '\u205f', '\u3000']

def isspace (c : Char) : Bool := c ∈ spaces

def strip (text : List Char) : List Char := (text.dropWhile isspace).rdropWhile isspace

def split (separator : Char) (text : List Char) : List (List Char) := text.splitOn separator

def sliceToLast (start : Nat) (text : List Char) : List Char := text.dropLast.drop start

theorem strip_padded {front text back : List Char} (frontSpace : ∀ c ∈ front, isspace c = true)
    (backSpace : ∀ c ∈ back, isspace c = true) (nonempty : text ≠ [])
    (starts : ∀ c ∈ text.head?, isspace c = false)
    (ends : ∀ c ∈ text.getLast?, isspace c = false) :
    strip (front ++ (text ++ back)) = text := by
  obtain ⟨first, rest, rfl⟩ := List.exists_cons_of_ne_nil nonempty
  have firstInk : ¬ isspace first = true := by
    rw [starts first rfl]
    exact Bool.false_ne_true
  have lastInk : ¬ isspace ((first :: rest).getLast nonempty) = true := by
    rw [ends _ (List.getLast?_eq_some_getLast nonempty)]
    exact Bool.false_ne_true
  have left : (front ++ (first :: rest ++ back)).dropWhile isspace = first :: rest ++ back := by
    rw [List.dropWhile_append_of_pos frontSpace, List.cons_append,
      List.dropWhile_cons_of_neg firstInk]
  unfold strip
  rw [left, List.rdropWhile, List.reverse_append, List.dropWhile_append_of_pos]
  · have whole := List.rdropWhile_eq_self_iff.mpr fun _ => lastInk
    exact whole
  · intro c member
    exact backSpace c (List.mem_reverse.mp member)

private theorem beq_of_free {separator : Char} {part : List Char} (free : separator ∉ part) :
    ∀ c ∈ part, (c == separator) = false := by
  intro c member
  apply beq_false_of_ne
  intro same
  exact free (same ▸ member)

theorem split_free {separator : Char} {text : List Char} (free : separator ∉ text) :
    split separator text = [text] :=
  List.splitOnP_eq_singleton (beq_of_free free)

theorem split_cons {separator : Char} {front : List Char} (free : separator ∉ front)
    (back : List Char) :
    split separator (front ++ separator :: back) = front :: split separator back :=
  List.splitOnP_append_cons_of_forall_mem (beq_of_free free) separator
    (beq_self_eq_true separator) back

def sign : List Char → Bool × List Char
  | '-' :: rest => (true, rest)
  | '+' :: rest => (false, rest)
  | text => (false, text)

def digitsValue (digits : List Char) : Nat := Nat.ofDigitChars 10 digits 0

/-- `int (text)`; `none` is a `ValueError`. -/
def int (text : List Char) : Option Int :=
  let (negative, digits) := sign (strip text)
  if digits ≠ [] ∧ digits.all Char.isDigit then
    some (if negative then -(digitsValue digits : Int) else digitsValue digits)
  else none

/-- `float (text)` for literals without an exponent; `none` is a `ValueError`. -/
def float (text : List Char) : Option ℚ :=
  let (negative, body) := sign (strip text)
  let whole := body.takeWhile Char.isDigit
  let magnitude : Option ℚ :=
    match body.dropWhile Char.isDigit with
    | [] => if whole = [] then none else some (digitsValue whole : ℚ)
    | '.' :: fraction =>
        if fraction.all Char.isDigit ∧ (whole ≠ [] ∨ fraction ≠ []) then
          some (digitsValue whole + digitsValue fraction / (10 : ℚ) ^ fraction.length)
        else none
    | _ => none
  magnitude.map fun value => if negative then -value else value

def showInt (value : Int) : List Char :=
  if value < 0 then '-' :: Nat.toDigits 10 value.natAbs else Nat.toDigits 10 value.natAbs

theorem isspace_of_isDigit {c : Char} (digit : c.isDigit = true) : isspace c = false := by
  have inked : spaces.all (fun space => !space.isDigit) = true := by decide
  apply decide_eq_false
  intro space
  have ink := List.all_eq_true.mp inked c space
  rw [digit] at ink
  cases ink

theorem toDigits_isDigit (value : Nat) : ∀ c ∈ Nat.toDigits 10 value, c.isDigit = true :=
  fun _ member => Nat.isDigit_of_mem_toDigits (by decide) (by decide) member

theorem digitsValue_toDigits (value : Nat) : digitsValue (Nat.toDigits 10 value) = value :=
  Nat.ofDigitChars_ten_toDigits

theorem takeWhile_digits {digits rest : List Char} (all : ∀ c ∈ digits, c.isDigit = true)
    (stops : ∀ c ∈ rest.head?, c.isDigit = false) :
    (digits ++ rest).takeWhile Char.isDigit = digits ∧
      (digits ++ rest).dropWhile Char.isDigit = rest := by
  rw [List.takeWhile_append_of_pos all, List.dropWhile_append_of_pos all]
  cases rest with
  | nil => exact ⟨List.append_nil _, rfl⟩
  | cons c rest =>
      have stop : ¬ c.isDigit = true := by
        rw [stops c rfl]
        exact Bool.false_ne_true
      rw [List.takeWhile_cons_of_neg stop, List.dropWhile_cons_of_neg stop]
      exact ⟨List.append_nil _, rfl⟩

theorem sign_of_digit {text : List Char} (starts : ∀ c ∈ text.head?, c.isDigit = true) :
    sign text = (false, text) := by
  unfold sign
  split
  · exact absurd (starts '-' rfl) (by decide)
  · exact absurd (starts '+' rfl) (by decide)
  · rfl

theorem sign_showInt (value : Int) (rest : List Char) :
    sign (showInt value ++ rest) =
      (decide (value < 0), Nat.toDigits 10 value.natAbs ++ rest) := by
  unfold showInt
  split_ifs with negative
  · rw [decide_eq_true negative]
    rfl
  · rw [decide_eq_false negative]
    apply sign_of_digit
    obtain ⟨first, others, shape⟩ :=
      List.exists_cons_of_ne_nil (@Nat.toDigits_ne_nil value.natAbs 10)
    intro c member
    rw [shape] at member
    cases member
    exact toDigits_isDigit value.natAbs _ (by rw [shape]; exact List.mem_cons_self)

theorem showInt_head (value : Int) (rest : List Char) :
    ∀ c ∈ (showInt value ++ rest).head?, isspace c = false := by
  intro c member
  obtain ⟨first, others, shape⟩ :=
    List.exists_cons_of_ne_nil (@Nat.toDigits_ne_nil value.natAbs 10)
  unfold showInt at member
  split_ifs at member
  · cases member
    decide
  · rw [shape] at member
    cases member
    exact isspace_of_isDigit (toDigits_isDigit value.natAbs _ (by rw [shape]; simp))

theorem toDigits_last (front : List Char) (value : Nat) :
    ∀ c ∈ (front ++ Nat.toDigits 10 value).getLast?, isspace c = false := by
  intro c member
  rw [List.getLast?_append_of_ne_nil _ Nat.toDigits_ne_nil] at member
  exact isspace_of_isDigit (toDigits_isDigit value c (List.mem_of_getLast? member))

theorem showInt_last (front : List Char) (value : Int) :
    ∀ c ∈ (front ++ showInt value).getLast?, isspace c = false := by
  unfold showInt
  split_ifs
  · rw [List.append_cons]
    exact toDigits_last _ value.natAbs
  · exact toDigits_last front value.natAbs

theorem strip_showInt (value : Int) : strip (showInt value) = showInt value := by
  have nonempty : showInt value ≠ [] := by
    unfold showInt
    split_ifs
    · exact List.cons_ne_nil _ _
    · exact Nat.toDigits_ne_nil
  have head := showInt_head value []
  rw [List.append_nil] at head
  have padded := @strip_padded [] (showInt value) [] (by simp) (by simp) nonempty head
    (showInt_last [] value)
  rwa [List.nil_append, List.append_nil] at padded

theorem comma_not_mem_showInt (value : Int) : ',' ∉ showInt value := by
  intro member
  have digits : ',' ∈ Nat.toDigits 10 value.natAbs := by
    unfold showInt at member
    split_ifs at member
    · exact (List.mem_cons.mp member).resolve_left (by decide)
    · exact member
  exact absurd (toDigits_isDigit value.natAbs ',' digits) (by decide)

theorem int_showInt (value : Int) : int (showInt value) = some value := by
  have signed := sign_showInt value []
  rw [List.append_nil, List.append_nil] at signed
  have digits : (Nat.toDigits 10 value.natAbs).all Char.isDigit = true :=
    List.all_eq_true.mpr (toDigits_isDigit value.natAbs)
  unfold int
  rw [strip_showInt, signed]
  simp only [digits, Nat.toDigits_ne_nil, ne_eq, not_false_eq_true, and_self, if_true,
    digitsValue_toDigits, decide_eq_true_eq, Option.some.injEq]
  split_ifs <;> omega

theorem float_decimal (value : Int) (fraction : Nat) :
    float (showInt value ++ '.' :: Nat.toDigits 10 fraction) =
      some (if value < 0 then
          -((value.natAbs : ℚ) + fraction / (10 : ℚ) ^ (Nat.toDigits 10 fraction).length)
        else (value.natAbs : ℚ) + fraction / (10 : ℚ) ^ (Nat.toDigits 10 fraction).length) := by
  have stripped : strip (showInt value ++ '.' :: Nat.toDigits 10 fraction) =
      showInt value ++ '.' :: Nat.toDigits 10 fraction := by
    have padded := @strip_padded [] (showInt value ++ '.' :: Nat.toDigits 10 fraction) []
      (by simp) (by simp) (by simp) (showInt_head value _)
      (by
        rw [List.append_cons]
        exact toDigits_last _ fraction)
    rwa [List.nil_append, List.append_nil] at padded
  obtain ⟨taken, dropped⟩ := @takeWhile_digits (Nat.toDigits 10 value.natAbs)
    ('.' :: Nat.toDigits 10 fraction) (toDigits_isDigit _) (by
      intro c member
      cases member
      decide)
  have digits : (Nat.toDigits 10 fraction).all Char.isDigit = true :=
    List.all_eq_true.mpr (toDigits_isDigit fraction)
  unfold float
  rw [stripped, sign_showInt]
  simp only [taken, dropped, digits, Nat.toDigits_ne_nil, ne_eq, not_false_eq_true, true_or, and_self,
    if_true, Option.map_some, digitsValue_toDigits, decide_eq_true_eq]

end Netwurk.Python
