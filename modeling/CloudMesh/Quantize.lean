import Mathlib.Algebra.Order.Round
import Mathlib.Tactic.Linarith
import Mathlib.Tactic.Positivity
import Mathlib.Tactic.Ring

/-!
# Rounding to a grid

A number is rounded to the nearest multiple of `1 / scale`. What is rounded stays within half a
step of the exact value, so that a sum of two is off by three halves of a step at most.

## Main definitions

- `quantize` — the nearest multiple
- `abs_quantize_add_le` — how far rounding is from being additive
-/

namespace CloudMesh.Quantize

variable {α : Type} [Field α] [LinearOrder α] [IsStrictOrderedRing α] [FloorRing α]

/-- Halves are rounded up. -/
def quantize (scale x : α) : α := round (x * scale) / scale

variable {scale x y : α}

theorem quantize_zero : quantize scale 0 = 0 := by
  rw [quantize, zero_mul, round_zero, Int.cast_zero, zero_div]

theorem round_mono (h : x ≤ y) : round x ≤ round y := by
  rw [round_eq, round_eq]
  exact Int.floor_le_floor (by linarith)

theorem quantize_mono (hscale : 0 < scale) (h : x ≤ y) : quantize scale x ≤ quantize scale y := by
  have hround : round (x * scale) ≤ round (y * scale) :=
    round_mono (mul_le_mul_of_nonneg_right h hscale.le)
  exact div_le_div_of_nonneg_right (by exact_mod_cast hround) hscale.le

/-- What is not negative is rounded to a natural number of steps. -/
theorem exists_quantize_eq (hscale : 0 < scale) (hx : 0 ≤ x) :
    ∃ n : ℕ, quantize scale x = n / scale := by
  have hround : 0 ≤ round (x * scale) := by
    have hmono : round (0 : α) ≤ round (x * scale) := round_mono (mul_nonneg hx hscale.le)
    rwa [round_zero] at hmono
  obtain ⟨n, hn⟩ := Int.eq_ofNat_of_zero_le hround
  refine ⟨n, ?_⟩
  rw [quantize, hn, Int.cast_natCast]

theorem abs_quantize_sub_le (hscale : 0 < scale) :
    |quantize scale x - x| ≤ 1 / 2 / scale := by
  have hsub : quantize scale x - x = -(x * scale - round (x * scale)) / scale := by
    rw [quantize]
    field_simp
    ring
  rw [hsub, abs_div, abs_neg, abs_of_pos hscale]
  exact div_le_div_of_nonneg_right (abs_sub_round _) hscale.le

theorem abs_quantize_add_le (hscale : 0 < scale) :
    |quantize scale (x + y) - quantize scale x - quantize scale y| ≤ 3 / 2 / scale := by
  obtain ⟨hlo, hhi⟩ := abs_le.mp (abs_quantize_sub_le (x := x + y) hscale)
  obtain ⟨hlox, hhix⟩ := abs_le.mp (abs_quantize_sub_le (x := x) hscale)
  obtain ⟨hloy, hhiy⟩ := abs_le.mp (abs_quantize_sub_le (x := y) hscale)
  -- half a step for each of the three roundings
  have hsteps : 3 / 2 / scale = 1 / 2 / scale + 1 / 2 / scale + 1 / 2 / scale := by ring
  rw [hsteps]
  exact abs_le.mpr ⟨by linarith, by linarith⟩

end CloudMesh.Quantize
