import Mathlib

/-!
# Grouping

The elements of a list by a key. The groups have the elements of the list between them, so that
what is added up over each group adds up to the sum over the list.

## Main definitions

- `keys`, `group` — the keys that occur, and the elements with one of them
- `sum_group` — the sums of the groups
-/

namespace CloudMesh.GroupBy

variable {α κ M : Type} [DecidableEq κ] [AddCommMonoid M] {key : α → κ} {k : κ} {ks : List κ}
  {x : α} {xs : List α}

def keys (key : α → κ) (xs : List α) : List κ := (xs.map key).dedup

def group (key : α → κ) (k : κ) (xs : List α) : List α := xs.filter fun x => key x = k

theorem mem_keys : k ∈ keys key xs ↔ ∃ x ∈ xs, key x = k := by
  rw [keys, List.mem_dedup, List.mem_map]

theorem nodup_keys (key : α → κ) (xs : List α) : (keys key xs).Nodup := List.nodup_dedup _

theorem group_eq_nil (h : k ∉ keys key xs) : group key k xs = [] :=
  List.filter_eq_nil_iff.mpr fun x hx heq => h (mem_keys.mpr ⟨x, hx, of_decide_eq_true heq⟩)

/-! ## Sums -/

/-- One key counts. -/
theorem sum_ite (hnodup : ks.Nodup) (hk : k ∈ ks) (a : M) :
    (ks.map fun k' => if k = k' then a else 0).sum = a := by
  induction ks with
  | nil => cases hk
  | cons k' ks ih =>
    obtain ⟨hnot, hnodup⟩ := List.nodup_cons.mp hnodup
    rw [List.map_cons, List.sum_cons]
    rcases List.mem_cons.mp hk with rfl | hk
    · -- the key is not there a second time
      have hzero : (ks.map fun k' => if k = k' then a else 0) = ks.map fun _ => 0 :=
        List.map_congr_left fun k' hk' => if_neg fun heq : k = k' => hnot (heq ▸ hk')
      rw [if_pos rfl, hzero]
      simp
    · rw [if_neg fun heq : k = k' => hnot (heq ▸ hk), zero_add, ih hnodup hk]

theorem sum_group_cons (f : α → M) : ((group key k (x :: xs)).map f).sum =
    (if key x = k then f x else 0) + ((group key k xs).map f).sum := by
  rw [group, List.filter_cons]
  split <;> simp_all [group]

/-- Where no key is missing or there twice, the groups have the elements between them. -/
theorem sum_group (f : α → M) (hnodup : ks.Nodup) (hmem : ∀ x ∈ xs, key x ∈ ks) :
    (ks.map fun k => ((group key k xs).map f).sum).sum = (xs.map f).sum := by
  induction xs with
  | nil => simp [group]
  | cons x xs ih =>
    obtain ⟨hx, hxs⟩ := List.forall_mem_cons.mp hmem
    simp only [sum_group_cons]
    rw [List.sum_map_add, sum_ite hnodup hx, ih hxs, List.map_cons, List.sum_cons]

/-- The sums in any order of the keys. -/
theorem sum_group_of_perm (f : α → M) (h : ks.Perm (keys key xs)) :
    (ks.map fun k => ((group key k xs).map f).sum).sum = (xs.map f).sum :=
  sum_group f (h.nodup_iff.mpr (nodup_keys key xs)) fun x hx =>
    h.mem_iff.mpr (mem_keys.mpr ⟨x, hx, rfl⟩)

theorem sum_length_of_perm (h : ks.Perm (keys key xs)) :
    (ks.map fun k => ((group key k xs).length : ℤ)).sum = xs.length := by
  have hone (ys : List α) : (ys.map fun _ => (1 : ℤ)).sum = ys.length := by simp
  rw [← hone xs, ← sum_group_of_perm (fun _ => 1) h]
  simp only [hone]

end CloudMesh.GroupBy
