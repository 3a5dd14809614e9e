import Mathlib.Algebra.Order.Field.Rat
import Mathlib.Algebra.Order.Floor.Ring
import Mathlib.Data.List.Sort
import Mathlib.Data.Rat.Floor
import Mathlib.Tactic.Linarith

/-!
# Nearest-rank percentiles

The percentile of a list at a fraction `q` is the least of its elements that have at least that
fraction of the elements at or below them. In a sorted list it is found by its index.

## Main definitions

- `IsNearestRank` — the percentile
- `isNearestRank_of_index` — where it is in a sorted list
-/

namespace CloudMesh.NearestRank

variable {α : Type} [LinearOrder α]

/-- `x` is the least element with a fraction `q` of all at or below it. -/
structure IsNearestRank (q : ℚ) (xs : List α) (x : α) : Prop where
  mem : x ∈ xs
  reached : q * xs.length ≤ xs.countP (· ≤ x)
  least : ∀ y ∈ xs, y < x → (xs.countP (· ≤ y) : ℚ) < q * xs.length

variable {q q' : ℚ} {xs ys : List α} {x y : α} {i : ℕ}

theorem IsNearestRank.perm (h : IsNearestRank q xs x) (hperm : xs.Perm ys) :
    IsNearestRank q ys x where
  mem := hperm.mem_iff.mp h.mem
  reached := by
    rw [← hperm.length_eq, ← hperm.countP_eq]
    exact h.reached
  least y hy hlt := by
    rw [← hperm.length_eq, ← hperm.countP_eq]
    exact h.least y (hperm.mem_iff.mpr hy) hlt

/-- Larger fractions have larger percentiles. -/
theorem IsNearestRank.le (h : IsNearestRank q xs x) (h' : IsNearestRank q' xs y) (hle : q ≤ q') :
    x ≤ y := by
  by_contra hlt
  have hbelow := h.least y h'.mem (not_le.mp hlt)
  have hscaled : q * xs.length ≤ q' * xs.length :=
    mul_le_mul_of_nonneg_right hle (Nat.cast_nonneg _)
  exact absurd (hscaled.trans h'.reached) (not_le.mpr hbelow)

theorem IsNearestRank.unique (h : IsNearestRank q xs x) (h' : IsNearestRank q xs y) : x = y :=
  le_antisymm (h.le h' le_rfl) (h'.le h le_rfl)

/-! ## Sorted lists -/

theorem getElem_le {j : ℕ} (hsorted : xs.Pairwise (· ≤ ·)) (hj : j < xs.length) (h : i ≤ j) :
    xs[i] ≤ xs[j] := by
  rcases h.eq_or_lt with rfl | hlt
  · exact le_rfl
  · exact List.pairwise_iff_getElem.mp hsorted i j (hlt.trans hj) hj hlt

/-- At or below the element at an index are all those before it. -/
theorem lt_countP (hsorted : xs.Pairwise (· ≤ ·)) (hi : i < xs.length) :
    i < xs.countP (· ≤ xs[i]) := by
  -- up to the index no element is greater
  have htake : ((xs.take (i + 1)).countP (· ≤ xs[i])) = i + 1 := by
    have hall : ∀ y ∈ xs.take (i + 1), decide (y ≤ xs[i]) = true := by
      intro y hy
      obtain ⟨j, hj, rfl⟩ := List.mem_take_iff_getElem.mp hy
      rw [decide_eq_true_iff]
      exact getElem_le hsorted hi (by omega)
    rw [List.countP_eq_length.mpr hall, List.length_take]
    omega
  have hle := (List.take_sublist (i + 1) xs).countP_le (p := fun y => decide (y ≤ xs[i]))
  omega

/-- At or below an element that is less are only those before the index. -/
theorem countP_le (hsorted : xs.Pairwise (· ≤ ·)) (hi : i < xs.length) (hy : y < xs[i]) :
    xs.countP (· ≤ y) ≤ i := by
  -- from the index on all elements are greater
  have hdrop : (xs.drop i).countP (· ≤ y) = 0 := by
    refine List.countP_eq_zero.mpr fun z hz => ?_
    obtain ⟨j, hj, rfl⟩ := List.mem_drop_iff_getElem.mp hz
    have hle : xs[i] ≤ xs[i + j] := getElem_le hsorted (by omega) (Nat.le_add_right i j)
    simpa using hy.trans_le hle
  calc xs.countP (· ≤ y)
      = (xs.take i).countP (· ≤ y) + (xs.drop i).countP (· ≤ y) := by
        rw [← List.countP_append, List.take_append_drop]
    _ ≤ i := by
        rw [hdrop, add_zero]
        exact List.countP_le_length.trans (List.length_take_le _ _)

/-- The index is the number of elements that the fraction asks for, less one. -/
theorem isNearestRank_of_index (hsorted : xs.Pairwise (· ≤ ·)) (hi : i < xs.length)
    (hreached : q * xs.length ≤ i + 1) (hleast : (i : ℚ) < q * xs.length) :
    IsNearestRank q xs xs[i] where
  mem := List.getElem_mem hi
  reached := by
    have hcount : (i + 1 : ℚ) ≤ xs.countP (· ≤ xs[i]) := by exact_mod_cast lt_countP hsorted hi
    exact hreached.trans hcount
  least y _ hlt := by
    have hcount : (xs.countP (· ≤ y) : ℚ) ≤ i := by exact_mod_cast countP_le hsorted hi hlt
    exact hcount.trans_lt hleast

end CloudMesh.NearestRank
