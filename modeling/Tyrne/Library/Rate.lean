import Mathlib.Algebra.Order.Floor.Div
import Mathlib.Order.GaloisConnection.Basic
import Mathlib.Order.Bounds.Basic

/-!
# Conversions between two scales

A rate of `num` to `den` converts a value of the first scale to the second by rounding up and
back by rounding down. The two conversions are a Galois connection, and they stay one between
bounded scales as long as the value rounded up is within the bound.
-/

/-- The rate of two scales: `den` units of the first are `num` units of the second. -/
structure Rate where
  num : ℕ
  den : ℕ
  num_pos : 0 < num
  den_pos : 0 < den

namespace Rate

variable (r : Rate) {x y m n : ℕ}

/-- From the first scale to the second, rounded up. -/
def up (x : ℕ) : ℕ := (r.num * x) ⌈/⌉ r.den

/-- From the second scale to the first, rounded down. -/
def down (y : ℕ) : ℕ := (r.den * y) ⌊/⌋ r.num

/-- Rounding up is left adjoint to rounding down. -/
theorem gc : GaloisConnection r.up r.down := by
  intro x y
  unfold up down
  rw [ceilDiv_le_iff_le_mul r.den_pos, le_floorDiv_iff_mul_le r.num_pos, smul_eq_mul]

theorem up_mono : Monotone r.up := r.gc.monotone_l

theorem down_mono : Monotone r.down := r.gc.monotone_u

/-- The conversion to the second scale, at most `n`. -/
def upTo (n x : ℕ) : ℕ := min (r.up x) n

/-- The conversion to the first scale, at most `m`. -/
def downTo (m y : ℕ) : ℕ := min (r.down y) m

theorem upTo_mono (n : ℕ) : Monotone (r.upTo n) := fun _ _ h => min_le_min_right n (r.up_mono h)

theorem downTo_mono (m : ℕ) : Monotone (r.downTo m) :=
  fun _ _ h => min_le_min_right m (r.down_mono h)

/-- Between bounded scales the conversions are adjoint where rounding up stays in bounds. -/
theorem upTo_le_iff (hx : x ≤ m) (hup : r.up x ≤ n) : r.upTo n x ≤ y ↔ x ≤ r.downTo m y := by
  unfold upTo downTo
  rw [min_eq_left hup, le_min_iff, and_iff_left hx]
  exact r.gc x y

end Rate
