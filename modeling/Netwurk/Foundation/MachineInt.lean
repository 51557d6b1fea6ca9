/-
The fixed-width integers of the code: `int` has 32 bits and wraps around in two's
complement, `size_t` has 64 bits.
-/

import Mathlib.Data.Int.Init

namespace Netwurk

def INT_MAX : Int := 2147483647

def INT_MIN : Int := -2147483648

/-- An `int` operand compared with a `size_t` is converted modulo 2^64. -/
def toSizeT (value : Int) : Nat := (value % 18446744073709551616).toNat

/-- A `size_t` stored in an `int` keeps its low 32 bits. -/
def toInt (size : Nat) : Int := Int.bmod size 4294967296

def increment (value : Int) : Int := if value = INT_MAX then INT_MIN else value + 1

theorem toSizeT_of_positive {value : Int} (positive : 1 ≤ value)
    (fits : value ≤ INT_MAX) : (toSizeT value : Int) = value := by
  unfold toSizeT INT_MAX at *
  omega

theorem increment_of_lt {value : Int} (room : value < INT_MAX) : increment value = value + 1 :=
  if_neg (Int.ne_of_lt room)

end Netwurk
