import Mathlib.Logic.Basic

/-!
# Machines

A component that is no set of equal processes is a machine: a state and labelled steps that are
not always enabled. A run is a list of labels, so a statement about every list of labels is a
statement about every order of what can happen.

## Main definitions

- `Machine` — the steps
- `Machine.run` — a list of labels
- `Machine.Along` — every step of a run meets a condition on the state before it
- `Machine.Always` — a property holds in every state of a run
-/

namespace Concurrent

variable {σ ℓ : Type}

/-- `none` means that the label is not enabled in the state. -/
structure Machine (σ ℓ : Type) where
  step : σ → ℓ → Option σ

namespace Machine

variable (M : Machine σ ℓ)

/-- A list of labels; `none` if one of them is not enabled. -/
def run : σ → List ℓ → Option σ
  | s, [] => some s
  | s, l :: ls => (M.step s l).bind fun t => run t ls

/-- Every step of the run of `ls` from `s` meets `A` in the state before it. -/
def Along (A : σ → ℓ → Prop) : σ → List ℓ → Prop
  | _, [] => True
  | s, l :: ls => ∀ t, M.step s l = some t → A s l ∧ Along A t ls

/-- `P` holds in every state of the run of `ls` from `s`. -/
def Always (P : σ → Prop) : σ → List ℓ → Prop
  | s, [] => P s
  | s, l :: ls => P s ∧ ∀ t, M.step s l = some t → Always P t ls

instance decidableAlong (A : σ → ℓ → Prop) [∀ s l, Decidable (A s l)] :
    (s : σ) → (ls : List ℓ) → Decidable (M.Along A s ls)
  | _, [] => isTrue trivial
  | s, l :: ls =>
    match hs : M.step s l with
    | none => isTrue fun t ht => by rw [hs] at ht; cases ht
    | some t =>
      have := decidableAlong A t ls
      decidable_of_iff (A s l ∧ M.Along A t ls)
        ⟨fun h u hu => by rw [hs] at hu; cases hu; exact h, fun h => h t hs⟩

variable {M} {s t u : σ} {l : ℓ} {ls : List ℓ} {A : σ → ℓ → Prop}

@[simp] theorem run_nil : M.run s [] = some s := rfl

theorem run_cons : M.run s (l :: ls) = some u ↔ ∃ t, M.step s l = some t ∧ M.run t ls = some u :=
  Option.bind_eq_some_iff

theorem run_append {ls' : List ℓ} :
    M.run s (ls ++ ls') = some u ↔ ∃ t, M.run s ls = some t ∧ M.run t ls' = some u := by
  induction ls generalizing s with
  | nil => simp
  | cons l ls ih =>
    simp only [List.cons_append, run_cons, ih]
    constructor
    · rintro ⟨a, ha, t, hls, hu⟩
      exact ⟨t, ⟨a, ha, hls⟩, hu⟩
    · rintro ⟨t, ⟨a, ha, hls⟩, hu⟩
      exact ⟨a, ha, t, hls, hu⟩

theorem run_concat : M.run s (ls ++ [l]) = some u ↔
    ∃ t, M.run s ls = some t ∧ M.step t l = some u := by
  simp [run_append, run_cons]

theorem Always.of_run {P : σ → Prop} (h : M.Always P s ls) (hrun : M.run s ls = some t) : P t := by
  induction ls generalizing s with
  | nil => cases hrun; exact h
  | cons l ls ih =>
    obtain ⟨a, ha, hls⟩ := run_cons.mp hrun
    exact ih (h.2 a ha) hls

/-- A property that every permitted step keeps holds after every run. -/
theorem run_induction {I : σ → Prop} (hstep : ∀ s l t, I s → A s l → M.step s l = some t → I t)
    (hs : I s) (hrun : M.run s ls = some t) (hal : M.Along A s ls) : I t := by
  induction ls generalizing s with
  | nil => cases hrun; exact hs
  | cons l ls ih =>
    obtain ⟨a, ha, hls⟩ := run_cons.mp hrun
    obtain ⟨hl, hrest⟩ := hal a ha
    exact ih (hstep s l a hs hl ha) hls hrest

/-- If the permitted steps are exactly those that keep `P`, the runs of permitted steps are exactly
those in which `P` holds in every state. -/
theorem always_iff_along {I P : σ → Prop} (hI : ∀ s l t, I s → M.step s l = some t → I t)
    (hP : ∀ s l t, I s → P s → M.step s l = some t → (A s l ↔ P t)) (hs : I s) (hPs : P s)
    (ls : List ℓ) : M.Always P s ls ↔ M.Along A s ls := by
  induction ls generalizing s with
  | nil => exact iff_of_true hPs trivial
  | cons l ls ih =>
    constructor
    · rintro ⟨-, hall⟩ t ht
      have hrest := hall t ht
      have hPt : P t := by
        cases ls with
        | nil => exact hrest
        | cons => exact hrest.1
      exact ⟨(hP s l t hs hPs ht).mpr hPt, (ih (hI s l t hs ht) hPt).mp hrest⟩
    · intro hall
      refine ⟨hPs, fun t ht => ?_⟩
      obtain ⟨hl, hrest⟩ := hall t ht
      exact (ih (hI s l t hs ht) ((hP s l t hs hPs ht).mp hl)).mpr hrest

end Machine

end Concurrent
