/-
The histogram of the replies: three rows of ten bins in one array of `int`, and
the map from request strings to rows. `update` checks nothing; an unknown request
is entered in the map with the value 0, and a response that is no number makes
`stoi` throw.
-/

import Mathlib.Logic.Function.Basic
import Mathlib.Data.Fintype.Basic
import Mathlib.Algebra.GroupWithZero.Nat
import Netwurk.Foundation.Counters
import Netwurk.RequestChannel.ServerThread

namespace Netwurk

open RequestChannel

inductive StoiError where
  | invalid_argument
  | out_of_range
deriving DecidableEq

def isspace (c : Char) : Bool :=
  c = ' ' || c = '\t' || c = '\n' || c = '\x0b' || c = '\x0c' || c = '\r'

/-- The sign, if any, and what follows it. -/
def signed : List Char → Bool × List Char
  | '-' :: rest => (true, rest)
  | '+' :: rest => (false, rest)
  | text => (false, text)

/-- Leading white space, a sign and decimal digits; the rest is ignored. -/
def stoi (str : List Char) : Except StoiError Int :=
  let (negative, text) := signed (str.dropWhile isspace)
  let digits := text.takeWhile Char.isDigit
  if digits = [] then .error .invalid_argument
  else
    let magnitude : Int := Nat.ofDigitChars 10 digits 0
    let value := if negative then -magnitude else magnitude
    if INT_MIN ≤ value ∧ value ≤ INT_MAX then .ok value else .error .out_of_range

/-! ### Rows and bins -/

inductive Patient where
  | john
  | jane
  | joe
deriving DecidableEq

instance : Fintype Patient where
  elems := {.john, .jane, .joe}
  complete := by
    intro patient
    cases patient <;> decide

/-- `hist [3][10]`, row after row. -/
structure Histogram where
  hist : Fin 30 → Int
  map : List (String × Nat)

namespace Histogram

def fresh : Histogram :=
  { hist := fun _ => 0
    map := [("data John Smith", 0), ("data Jane Smith", 1), ("data Joe Smith", 2)] }

/-- `map [key]`, which enters a key it does not find. -/
def subscript (map : List (String × Nat)) (key : String) : Nat × List (String × Nat) :=
  match map.lookup key with
  | some index => (index, map)
  | none => (0, map ++ [(key, 0)])

inductive Located where
  | found (cell : Fin 30) (map : List (String × Nat))
  | throws (error : StoiError) (map : List (String × Nat))
  | undefined
deriving DecidableEq

/-- `hist [map [request]] [stoi (response) / 10]`, with the map after the look-up. A bin
outside its row is the same distance away in the whole array; outside the array nothing
is defined. -/
def locate (map : List (String × Nat)) (request response : String) : Located :=
  let (person_index, map) := subscript map request
  match stoi response.toList with
  | .error error => .throws error map
  | .ok value =>
      let index : Int := 10 * person_index + value.tdiv 10
      if inside : 0 ≤ index ∧ index < 30 then
        .found ⟨index.toNat, (Int.toNat_lt inside.1).mpr inside.2⟩ map
      else .undefined

inductive Updated where
  | counted (after : Histogram)
  | throws (error : StoiError) (after : Histogram)
  | undefined

def update (histogram : Histogram) (request response : String) : Updated :=
  match locate histogram.map request response with
  | .found cell map => .counted
      { hist := Counters.bump histogram.hist cell
        map := map }
  | .throws error map => .throws error { histogram with map := map }
  | .undefined => .undefined

def cell (row : Fin 3) (bin : Fin 10) : Fin 30 :=
  ⟨10 * row.val + bin.val, by omega⟩

theorem cell_injective {row other : Fin 3} {bin otherBin : Fin 10}
    (same : cell row bin = cell other otherBin) : row = other ∧ bin = otherBin := by
  have value := congrArg Fin.val same
  simp only [cell] at value
  constructor <;> apply Fin.ext <;> omega

end Histogram

namespace Patient

def key : Patient → String
  | john => "data John Smith"
  | jane => "data Jane Smith"
  | joe => "data Joe Smith"

-- Literals of `Fin 3` name this proof, in every module the same.
instance neZeroThree : NeZero 3 := ⟨by decide⟩

def row : Patient → Fin 3
  | john => 0
  | jane => 1
  | joe => 2

theorem key_injective {patient other : Patient} (same : patient.key = other.key) :
    patient = other := by
  cases patient <;> cases other <;> first | rfl | exact absurd same (by decide)

theorem row_injective {patient other : Patient} (same : patient.row = other.row) :
    patient = other := by
  cases patient <;> cases other <;> first | rfl | exact absurd same (by decide)

theorem subscript_key (patient : Patient) :
    Histogram.subscript Histogram.fresh.map patient.key =
      (patient.row.val, Histogram.fresh.map) := by
  cases patient <;> decide

end Patient

/-! ### Decimal responses -/

def Reply (response : String) : Prop :=
  ∃ value, value < 100 ∧ response = String.ofList (to_string value)

def inBin (bin : Fin 10) (response : String) : Bool :=
  match stoi response.toList with
  | .ok value => decide (10 * (bin.val : Int) ≤ value ∧ value ≤ 10 * (bin.val : Int) + 9)
  | .error _ => false

theorem stoi_to_string {value : Nat} (fits : (value : Int) ≤ INT_MAX) :
    stoi (to_string value) = .ok value := by
  have digits : ∀ c ∈ to_string value, c.isDigit = true := fun c => digitChar_isDigit
  have nonempty : to_string value ≠ [] := Nat.toDigits_ne_nil
  obtain ⟨first, rest, shape⟩ := List.exists_cons_of_ne_nil nonempty
  have firstDigit : first.isDigit = true := digits first (by rw [shape]; simp)
  have unspaced : (to_string value).dropWhile isspace = to_string value := by
    rw [shape, List.dropWhile_cons_of_neg]
    intro space
    simp only [isspace, Bool.or_eq_true, decide_eq_true_eq] at space
    rcases space with ((((same | same) | same) | same) | same) | same <;>
      (subst same; exact absurd firstDigit (by decide))
  have unsigned : signed (to_string value) = (false, to_string value) := by
    rw [shape]
    unfold signed
    split
    · rename_i same
      cases same
      exact absurd firstDigit (by decide)
    · rename_i same
      cases same
      exact absurd firstDigit (by decide)
    · rfl
  have whole : (to_string value).takeWhile Char.isDigit = to_string value :=
    List.takeWhile_eq_self_iff.mpr digits
  have magnitude : Nat.ofDigitChars 10 (to_string value) 0 = value :=
    Nat.ofDigitChars_ten_toDigits
  have above : INT_MIN ≤ (value : Int) := by
    unfold INT_MIN
    omega
  simp [stoi, unspaced, unsigned, whole, magnitude, nonempty, above, fits]

theorem Reply.value {response : String} (reply : Reply response) :
    ∃ value : Nat, value < 100 ∧ stoi response.toList = .ok (value : Int) := by
  obtain ⟨value, small, rfl⟩ := reply
  refine ⟨value, small, ?_⟩
  rw [String.toList_ofList]
  apply stoi_to_string
  unfold INT_MAX
  omega

theorem Reply.ne_quit {response : String} (reply : Reply response) : response ≠ "quit" := by
  intro same
  subst same
  obtain ⟨value, _, number⟩ := reply.value
  have refused : stoi "quit".toList = .error .invalid_argument := by decide
  rw [refused] at number
  cases number

theorem inBin_of_value {response : String} {value : Nat} (small : value < 100)
    (number : stoi response.toList = .ok (value : Int)) (bin : Fin 10) :
    inBin bin response = decide (bin = ⟨value / 10, by omega⟩) := by
  unfold inBin
  rw [number]
  apply decide_eq_decide.mpr
  rw [Fin.ext_iff]
  change _ ↔ bin.val = value / 10
  constructor
  · intro both
    obtain ⟨low, high⟩ := both
    omega
  · intro same
    omega

/-- A value in 0..99 for a key with its own row finds a cell of that row. -/
theorem Histogram.locate_of_value {map grown : List (String × Nat)} {row : Fin 3}
    {request response : String} (indexed : subscript map request = (row.val, grown))
    {value : Nat} (small : value < 100) (number : stoi response.toList = .ok (value : Int)) :
    locate map request response = .found (cell row ⟨value / 10, by omega⟩) grown := by
  have quotient : (value : Int).tdiv 10 = ((value / 10 : Nat) : Int) := rfl
  have within := row.isLt
  have inside : (0 : Int) ≤ 10 * (row.val : Int) + ((value / 10 : Nat) : Int) ∧
      10 * (row.val : Int) + ((value / 10 : Nat) : Int) < 30 := by
    omega
  have position : (⟨(10 * (row.val : Int) + ((value / 10 : Nat) : Int)).toNat,
      (Int.toNat_lt inside.1).mpr inside.2⟩ : Fin 30) = cell row ⟨value / 10, by omega⟩ := by
    apply Fin.ext
    change (10 * (row.val : Int) + ((value / 10 : Nat) : Int)).toNat = 10 * row.val + value / 10
    omega
  unfold locate
  rw [indexed, number]
  simp only [quotient, dif_pos inside, position]

/-- A reply to a patient's request adds one to that patient's cell for the
value, and changes nothing else. -/
theorem Histogram.update_reply {histogram : Histogram}
    (standard : histogram.map = Histogram.fresh.map) (patient : Patient) {response : String}
    (reply : Reply response) :
    ∃ bin : Fin 10, (∀ other, inBin other response = decide (other = bin)) ∧
      histogram.update patient.key response = .counted
        { histogram with
          hist := Function.update histogram.hist (Histogram.cell patient.row bin)
            (increment (histogram.hist (Histogram.cell patient.row bin))) } := by
  obtain ⟨value, small, number⟩ := reply.value
  refine ⟨_, inBin_of_value small number, ?_⟩
  have indexed : subscript histogram.map patient.key = (patient.row.val, histogram.map) := by
    rw [standard]
    exact patient.subscript_key
  rw [update, locate_of_value indexed small number]
  rfl

end Netwurk
