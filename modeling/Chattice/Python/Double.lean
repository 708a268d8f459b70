import Mathlib.Data.Int.Log
import Mathlib.Data.Rat.Floor
import Mathlib.Tactic.FieldSimp
import Mathlib.Tactic.NormNum

/-!
# Doubles

What Python computes with `float`: the exact result, rounded to the nearest double, the even one of two. A
rational number stands for the double next to it, as a literal does; overflow to infinity is left out.

* `double` : the nearest double;
* `double_natCast` : whole numbers up to 2 ^ 53 are kept.
-/

namespace Chattice.Python

def roundEven (x : Rat) : Int :=
  let k := ⌊x⌋
  if x - k < 1 / 2 then k
  else if 1 / 2 < x - k then k + 1
  else k + k % 2

theorem roundEven_intCast (k : Int) : roundEven k = k := by
  unfold roundEven
  simp

/-- The distance between the doubles around `x`; below the normal range it stays the same. -/
def ulp (x : Rat) : Rat := 2 ^ (max (Int.log 2 |x|) (-1022) - 52)

def double (x : Rat) : Rat := roundEven (x / ulp x) * ulp x

theorem ulp_pos (x : Rat) : 0 < ulp x := zpow_pos (by norm_num) _

/-- A whole number of its units is a double. -/
theorem double_of_dvd {x : Rat} {k : Int} (h : x = k * ulp x) : double x = x := by
  have hk : x / ulp x = k := (div_eq_iff (ulp_pos x).ne').mpr h
  rw [double, hk, roundEven_intCast]
  exact h.symm

theorem double_natCast {n : Nat} (h : n < 2 ^ 53) : double n = n := by
  rcases Nat.eq_zero_or_pos n with rfl | hpos
  · exact double_of_dvd (k := 0) (by simp)
  have hlog : Int.log 2 |(n : Rat)| = Nat.log 2 n := by
    rw [Nat.abs_cast, Int.log_natCast]
  have hlow : Nat.log 2 n ≤ 52 := by
    have hlt := Nat.log_lt_of_lt_pow hpos.ne' h
    omega
  -- the unit is 1 or a fraction of 1
  have hulp : ulp n = 1 / (2 ^ (52 - Nat.log 2 n) : Nat) := by
    have hexponent : max ((Nat.log 2 n : Nat) : Int) (-1022) - 52 = -((52 - Nat.log 2 n : Nat) : Int) := by
      omega
    rw [ulp, hlog, hexponent, zpow_neg, zpow_natCast, one_div]
    push_cast
    rfl
  refine double_of_dvd (k := n * 2 ^ (52 - Nat.log 2 n)) ?_
  rw [hulp]
  push_cast
  field_simp

end Chattice.Python
