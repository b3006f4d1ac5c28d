import Mathlib.Algebra.Order.Floor.Defs
import Mathlib.Data.Rat.Floor
import Mathlib.Tactic.Linarith

/-!
# Numbers

`Math.round`, `Number.prototype.toFixed` and division on exact numbers, and the numbers that
JSON can carry.
-/

namespace IngrediGo.Number

/-- `Math.round(x)`: half is rounded up. -/
def round (x : ℚ) : ℤ := (x + 1 / 2).floor

/-- `x.toFixed(2)`, for `x` below the 10²¹ from where on JavaScript writes an exponent. -/
def toFixed2 (x : ℚ) : String :=
  let n := (round (|x| * 100)).toNat
  let cents := toString (n % 100)
  let text := toString (n / 100) ++ "." ++ if n % 100 < 10 then "0" ++ cents else cents
  if x < 0 then "-" ++ text else text

/-- `x / y`, with `none` for the `NaN` or infinity of a division by zero. -/
def div (x y : ℚ) : Option ℚ := if y = 0 then none else some (x / y)

theorem div_some {x y : ℚ} (h : y ≠ 0) : div x y = some (x / y) := if_neg h

theorem div_isSome {x y : ℚ} : (div x y).isSome = true ↔ y ≠ 0 := by
  unfold div
  split
  · next h => simp [h]
  · next h => simp [h]

/-! ## The 64-bit format

What a number of a JSON text is read as and written back as. A larger one, such as `1e400`, is
read as `Infinity`, which is written as `null`. -/

/-- A finite number of the format. -/
@[ext] structure Double where
  value : ℚ
  isDouble : ∃ m e : ℤ, |m| < 2 ^ 53 ∧ -1074 ≤ e ∧ e ≤ 971 ∧ value = m * 2 ^ e
  deriving DecidableEq

/-- The whole numbers below 2⁵³ are of the format. -/
def Double.ofNat (n : ℕ) (h : n < 2 ^ 53) : Double where
  value := n
  isDouble := by
    refine ⟨n, 0, ?_, by decide, by decide, by simp⟩
    rw [Nat.abs_cast]
    exact_mod_cast h

/-! ## Rounding -/

theorem round_intCast (n : ℤ) : round n = n := by
  have hfloor : ⌊(n : ℚ) + 1 / 2⌋ = n := Int.floor_eq_iff.mpr ⟨by linarith, by linarith⟩
  exact hfloor

theorem round_mono {x y : ℚ} (h : x ≤ y) : round x ≤ round y := by
  have hhalf : x + 1 / 2 ≤ y + 1 / 2 := by linarith
  exact Int.floor_le_floor hhalf

/-- A whole number is not rounded away. -/
theorem round_lt {x y : ℚ} (h : x + 1 ≤ y) : round x < round y := by
  have hhalf : x + 1 / 2 + 1 ≤ y + 1 / 2 := by linarith
  have hfloor := Int.floor_le_floor hhalf
  rw [Int.floor_add_one] at hfloor
  exact Int.lt_of_add_one_le hfloor

end IngrediGo.Number
