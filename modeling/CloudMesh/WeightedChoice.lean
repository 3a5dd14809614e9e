import Mathlib.Algebra.Order.BigOperators.Group.List
import Mathlib.Algebra.Order.Field.Basic
import Mathlib.MeasureTheory.Measure.Lebesgue.Basic

/-!
# Weighted choices

One roll between zero and the sum of the weights falls on one of them. The weights are subtracted
from the roll until nothing is left, which is a search for the interval of cumulative weight that
the roll lies in; a uniform roll then falls on each weight in proportion to it.

## Main definitions

- `pick` — the choice by subtraction
- `Lands` — the interval of cumulative weight
- `share` — the fractions of the sum that fall on a weight
-/

namespace CloudMesh.WeightedChoice

section Pick

variable {K : Type*} [Field K] [LinearOrder K] [IsStrictOrderedRing K]

/-- The index of the weight at which the roll drops to zero. -/
def pick : K → List K → Option ℕ
  | _, [] => none
  | roll, w :: ws => if roll - w ≤ 0 then some 0 else (pick (roll - w) ws).map (· + 1)

/-- The roll lies behind the weights before the `i`-th, and not behind the `i`-th. -/
structure Lands (ws : List K) (roll : K) (i : ℕ) : Prop where
  lt : i < ws.length
  behind : i = 0 ∨ (ws.take i).sum < roll
  within : roll ≤ (ws.take (i + 1)).sum

variable {ws : List K} {roll : K} {i j : ℕ}

theorem sum_take_nonneg (hws : ∀ w ∈ ws, 0 ≤ w) (i : ℕ) : 0 ≤ (ws.take i).sum :=
  List.sum_nonneg fun w hw => hws w (List.mem_of_mem_take hw)

theorem sum_take_mono (hws : ∀ w ∈ ws, 0 ≤ w) (h : i ≤ j) : (ws.take i).sum ≤ (ws.take j).sum :=
  ((List.take_sublist_take_left h).sum_le_sum fun w hw => hws w (List.mem_of_mem_take hw))

/-- Subtraction finds the interval. -/
theorem pick_eq_some_iff (hws : ∀ w ∈ ws, 0 ≤ w) : pick roll ws = some i ↔ Lands ws roll i := by
  induction ws generalizing roll i with
  | nil => exact iff_of_false (Option.some_ne_none i).symm fun h => absurd h.lt (Nat.not_lt_zero i)
  | cons w ws ih =>
    have hrest : ∀ v ∈ ws, 0 ≤ v := fun v hv => hws v (List.mem_cons_of_mem _ hv)
    rw [pick]
    cases i with
    | zero =>
      -- the first interval has no lower end: a roll of 0 lands on it
      have hfirst : Lands (w :: ws) roll 0 ↔ roll - w ≤ 0 := by
        rw [sub_nonpos]
        exact ⟨fun h => by simpa using h.within, fun h => ⟨by simp, .inl rfl, by simpa using h⟩⟩
      rw [hfirst]
      split
      · next hle => exact iff_of_true rfl hle
      · next hlt =>
        refine iff_of_false (fun h => ?_) hlt
        obtain ⟨j, -, hj⟩ := Option.map_eq_some_iff.mp h
        exact Nat.succ_ne_zero j hj
    | succ j =>
      -- what the first weight takes off the roll is where the other intervals begin
      have hnext : Lands (w :: ws) roll (j + 1) ↔ w < roll ∧ Lands ws (roll - w) j := by
        have hsum := sum_take_nonneg hrest j
        constructor
        · intro h
          have hbehind := h.behind.resolve_left (Nat.succ_ne_zero j)
          have hwithin := h.within
          rw [List.take_succ_cons, List.sum_cons] at hbehind hwithin
          refine ⟨by linarith, ⟨by simpa using h.lt, .inr (by linarith), by linarith⟩⟩
        · rintro ⟨hlt, h⟩
          refine ⟨by simpa using h.lt, .inr ?_, ?_⟩
          · rw [List.take_succ_cons, List.sum_cons]
            rcases h.behind with rfl | hbehind
            · simpa using hlt
            · linarith
          · have hwithin := h.within
            rw [List.take_succ_cons, List.sum_cons]
            linarith
      rw [hnext, ← ih hrest]
      split
      · next hle =>
        exact iff_of_false (fun h => Nat.succ_ne_zero j (Option.some.inj h).symm)
          fun h => absurd h.1 (not_lt.mpr (sub_nonpos.mp hle))
      · next hlt =>
        rw [and_iff_right (not_le.mp fun hle => hlt (sub_nonpos.mpr hle))]
        simp

/-- A roll up to the sum falls on some weight. -/
theorem exists_pick (hne : ws ≠ []) (hroll : roll ≤ ws.sum) : ∃ i, pick roll ws = some i := by
  induction ws generalizing roll with
  | nil => exact absurd rfl hne
  | cons w ws ih =>
    rw [List.sum_cons] at hroll
    rw [pick]
    split
    · exact ⟨0, rfl⟩
    · next hlt =>
      have hrest : ws ≠ [] := by
        rintro rfl
        rw [List.sum_nil, add_zero] at hroll
        exact hlt (sub_nonpos.mpr hroll)
      obtain ⟨i, hi⟩ := ih hrest (sub_le_iff_le_add'.mpr hroll)
      exact ⟨i + 1, by rw [hi, Option.map_some]⟩

end Pick

/-! ## Uniform rolls -/

section Share

variable {ws : List ℝ} {i : ℕ}

/-- The fractions of the sum, from 0 to less than 1, that fall on the `i`-th weight. -/
def share (ws : List ℝ) (i : ℕ) : Set ℝ := {x | 0 ≤ x ∧ x < 1 ∧ Lands ws (x * ws.sum) i}

theorem share_subset (hsum : 0 < ws.sum) :
    share ws i ⊆ Set.Icc ((ws.take i).sum / ws.sum) ((ws.take (i + 1)).sum / ws.sum) := by
  rintro x ⟨hnonneg, -, hlands⟩
  refine ⟨?_, (le_div_iff₀ hsum).mpr hlands.within⟩
  rcases hlands.behind with rfl | hbehind
  · simpa using hnonneg
  · exact ((div_lt_iff₀ hsum).mpr hbehind).le

theorem subset_share (hws : ∀ w ∈ ws, 0 ≤ w) (hsum : 0 < ws.sum) (hi : i < ws.length) :
    Set.Ioo ((ws.take i).sum / ws.sum) ((ws.take (i + 1)).sum / ws.sum) ⊆ share ws i := by
  rintro x ⟨hbehind, hwithin⟩
  have htotal : (ws.take (i + 1)).sum ≤ ws.sum := by
    have := sum_take_mono hws (Nat.succ_le_of_lt hi)
    rwa [List.take_length] at this
  refine ⟨(div_nonneg (sum_take_nonneg hws i) hsum.le).trans hbehind.le,
    hwithin.trans_le ((div_le_one hsum).mpr htotal), hi, .inr ?_, ?_⟩
  · exact (div_lt_iff₀ hsum).mp hbehind
  · exact ((lt_div_iff₀ hsum).mp hwithin).le

/-- A uniform roll falls on each weight in proportion to it. -/
theorem volume_share (hws : ∀ w ∈ ws, 0 ≤ w) (hsum : 0 < ws.sum) (hi : i < ws.length) :
    MeasureTheory.volume (share ws i) = ENNReal.ofReal (ws[i] / ws.sum) := by
  have hwidth : (ws.take (i + 1)).sum / ws.sum - (ws.take i).sum / ws.sum = ws[i] / ws.sum := by
    rw [List.sum_take_succ ws i hi, ← sub_div, add_sub_cancel_left]
  -- whether the ends belong to the interval makes no difference to its length
  refine le_antisymm ?_ ?_
  · calc MeasureTheory.volume (share ws i)
        ≤ MeasureTheory.volume
          (Set.Icc ((ws.take i).sum / ws.sum) ((ws.take (i + 1)).sum / ws.sum)) :=
        MeasureTheory.measure_mono (share_subset hsum)
      _ = ENNReal.ofReal (ws[i] / ws.sum) := by rw [Real.volume_Icc, hwidth]
  · calc ENNReal.ofReal (ws[i] / ws.sum)
        = MeasureTheory.volume
          (Set.Ioo ((ws.take i).sum / ws.sum) ((ws.take (i + 1)).sum / ws.sum)) := by
          rw [Real.volume_Ioo, hwidth]
      _ ≤ MeasureTheory.volume (share ws i) :=
        MeasureTheory.measure_mono (subset_share hws hsum hi)

/-- Rational rolls and weights are real ones. -/
theorem lands_cast {ws : List ℚ} {roll : ℚ} :
    Lands (ws.map (Rat.cast : ℚ → ℝ)) (roll : ℝ) i ↔ Lands ws roll i := by
  have hsum : ∀ j, ((ws.map (Rat.cast : ℚ → ℝ)).take j).sum = ((ws.take j).sum : ℚ) := by
    intro j
    rw [← List.map_take]
    exact (map_list_sum (Rat.castHom ℝ) (ws.take j)).symm
  constructor
  · intro h
    have hbehind := h.behind
    have hwithin := h.within
    rw [hsum] at hbehind hwithin
    exact ⟨by simpa using h.lt, by exact_mod_cast hbehind, by exact_mod_cast hwithin⟩
  · intro h
    refine ⟨by simpa using h.lt, ?_, ?_⟩
    · rw [hsum]
      exact_mod_cast h.behind
    · rw [hsum]
      exact_mod_cast h.within

end Share

end CloudMesh.WeightedChoice
