import Mathlib.Algebra.Ring.Nat
import Mathlib.Algebra.Ring.Int.Defs
import Mathlib.Tactic.Common

/-!
# Integers of 32 bits

An operation on values of type `int` or `long` wraps: its result is the one with the same remainder
that the type has.
-/

namespace Bytes

/-- The value that an `int` has after an operation. -/
def int32 (x : Int) : Int := x.bmod (2 ^ 32)

variable {x : Int}

theorem int32_eq (hlo : -2 ^ 31 ≤ x) (hhi : x < 2 ^ 31) :
  int32 x = x
  := by
  rw [int32, Int.bmod_eq_of_le]
  · omega
  · omega

theorem int32_add (x y : Int) :
  int32 (int32 x + y) = int32 (x + y)
  := Int.bmod_add_bmod

theorem int32_range (x : Int) :
  -2 ^ 31 ≤ int32 x ∧ int32 x < 2 ^ 31
  := by
  rw [int32]
  have hlo := Int.le_bmod (x := x) (m := 2 ^ 32) (by decide)
  have hhi := Int.bmod_lt (x := x) (m := 2 ^ 32) (by decide)
  constructor
  · omega
  · omega

end Bytes
