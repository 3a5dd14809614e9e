import Mathlib.Data.List.Perm.Basic
import Mathlib.Order.Defs.LinearOrder
import Mathlib.Order.Lattice

/-!
# Stores that forget what is too old

A history of timed items, and a store that stands for it. The store may forget an item in any way,
one by one or all at once, as long as the item lies behind a bound; what is asked about the items
after the bound is then answered as from the whole history.

## Main definitions

- `past` — the items after a bound
- `Keeps` — the store has every item of the history after the bound, and no other
-/

namespace CloudMesh.TimeWindow

variable {α T : Type*} [LinearOrder T]

/-- The items after the bound. -/
def past (time : α → T) (bound : T) (items : List α) : List α :=
  items.filter fun x => bound < time x

/-- Behind the bound the store may have anything. -/
def Keeps (time : α → T) (bound : T) (history store : List α) : Prop :=
  (past time bound store).Perm (past time bound history)

section Past

variable {time : α → T} {bound later : T} {items : List α} {x : α}

@[simp] theorem past_nil : past time bound [] = [] := rfl

theorem past_cons : past time bound (x :: items) =
    if bound < time x then x :: past time bound items else past time bound items := by
  simp only [past, List.filter_cons, decide_eq_true_eq]

theorem past_past (h : bound ≤ later) :
    past time later (past time bound items) = past time later items := by
  rw [past, past, past, List.filter_filter]
  refine List.filter_congr fun x _ => ?_
  have himp : later < time x → bound < time x := lt_of_le_of_lt h
  by_cases hx : later < time x
  · simp [hx, himp hx]
  · simp [hx]

theorem past_sublist (h : bound ≤ later) :
    (past time later items).Sublist (past time bound items) := by
  rw [← past_past h]
  exact List.filter_sublist

theorem past_eq_nil (h : ∀ x ∈ items, time x ≤ bound) : past time bound items = [] :=
  List.filter_eq_nil_iff.mpr fun x hx => by simpa using h x hx

theorem past_eq_self (h : ∀ x ∈ items, bound < time x) : past time bound items = items :=
  List.filter_eq_self.mpr fun x hx => by simpa using h x hx

/-- Dropping items behind the bound does not show. -/
theorem past_filter (p : α → Bool) (h : ∀ x ∈ items, bound < time x → p x = true) :
    past time bound (items.filter p) = past time bound items := by
  rw [past, past, List.filter_filter]
  refine List.filter_congr fun x hx => ?_
  by_cases hlate : bound < time x
  · simp [hlate, h x hx hlate]
  · simp [hlate]

end Past

section Keeps

variable {time : α → T} {bound later : T} {history store store' : List α} {x : α}

theorem Keeps.refl (items : List α) : Keeps time bound items items := List.Perm.refl _

/-- The bound moves forward. -/
theorem Keeps.mono (h : Keeps time bound history store) (hle : bound ≤ later) :
    Keeps time later history store := by
  have hfilter := List.Perm.filter (fun x => decide (later < time x)) h
  have hpast : (past time later (past time bound store)).Perm
      (past time later (past time bound history)) := hfilter
  rwa [past_past hle, past_past hle] at hpast

/-- Items behind the bound are dropped. -/
theorem Keeps.filter (h : Keeps time bound history store) (p : α → Bool)
    (hp : ∀ x ∈ store, bound < time x → p x = true) :
    Keeps time bound history (store.filter p) := by
  unfold Keeps
  rw [past_filter p hp]
  exact h

/-- The whole store is dropped. -/
theorem Keeps.forget (h : ∀ x ∈ history, time x ≤ bound) : Keeps time bound history [] := by
  unfold Keeps
  rw [past_eq_nil h, past_nil]

/-- The whole store is gone once nothing counts any more. -/
theorem Keeps.expire (h : Keeps time bound history store) (alive : Prop) [Decidable alive]
    (hdead : ¬alive → ∀ x ∈ history, time x ≤ bound) :
    Keeps time bound history (if alive then store else []) := by
  split
  · exact h
  · next hgone => exact Keeps.forget (hdead hgone)

theorem Keeps.cons (h : Keeps time bound history store) (x : α) :
    Keeps time bound (x :: history) (x :: store) := by
  unfold Keeps
  rw [past_cons, past_cons]
  split
  · exact List.Perm.cons x h
  · exact h

theorem Keeps.perm (h : Keeps time bound history store) (hperm : store'.Perm store) :
    Keeps time bound history store' :=
  (hperm.filter _).trans h

/-- A store without anything behind the bound is the part of the history after it. -/
theorem Keeps.perm_past (h : Keeps time bound history store)
    (hstore : ∀ x ∈ store, bound < time x) : store.Perm (past time bound history) := by
  have heq := past_eq_self hstore
  exact heq ▸ h

end Keeps

end CloudMesh.TimeWindow
