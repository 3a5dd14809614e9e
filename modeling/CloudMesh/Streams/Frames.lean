import Mathlib.Data.List.Infix

/-!
# Machines that read a stream

A machine reads one item at a time and hands out what it has found. It does not matter how the
items are cut into reads. The machine `cut` is `String.prototype.split` at a separator of several
items; what is left over at the end of a read can be read again from the start.

## Main definitions

- `scan` — what a machine hands out, and the state it ends in
- `cut` — the parts of a stream between separators
- `splitOn` — all parts of a stream that has ended
-/

namespace Streams

variable {σ α β : Type}

/-- What the machine hands out while it reads the items, and its state after them. -/
def scan (step : σ → α → List β × σ) : σ → List α → List β × σ
  | state, [] => ([], state)
  | state, x :: xs =>
    let (out, state) := step state x
    let (outs, state) := scan step state xs
    (out ++ outs, state)

theorem scan_append (step : σ → α → List β × σ) (state : σ) (xs ys : List α) :
    scan step state (xs ++ ys) =
      ((scan step state xs).1 ++ (scan step (scan step state xs).2 ys).1,
        (scan step (scan step state xs).2 ys).2) := by
  induction xs generalizing state with
  | nil => rfl
  | cons x xs ih => simp only [List.cons_append, scan, ih, List.append_assoc]

/-- What has been handed out of the first items. -/
theorem scan_prefix (step : σ → α → List β × σ) (state : σ) {xs ys : List α}
    (h : xs <+: ys) : (scan step state xs).1 <+: (scan step state ys).1 := by
  obtain ⟨rest, rfl⟩ := h
  rw [scan_append]
  exact List.prefix_append _ _

/-! ## Separators -/

variable [DecidableEq α] (sep : List α)

/-- One more item: it may complete the separator. -/
def cut (part : List α) (x : α) : List (List α) × List α :=
  if sep <:+ part ++ [x] then ([(part ++ [x]).take (part.length + 1 - sep.length)], [])
  else ([], part ++ [x])

/-- The text between the separators. -/
def splitOn (xs : List α) : List (List α) :=
  let (parts, rest) := scan (cut sep) [] xs
  parts ++ [rest]

variable {sep} {part xs : List α}

/-- What is left over when a stream has been read holds no separator: read again from the start,
it is left over again. -/
theorem scan_cut_rest (h : scan (cut sep) [] part = ([], part)) :
    scan (cut sep) [] (scan (cut sep) part xs).2 = ([], (scan (cut sep) part xs).2) := by
  induction xs generalizing part with
  | nil => exact h
  | cons x xs ih =>
    by_cases hx : sep <:+ part ++ [x]
    · simp only [scan, cut, if_pos hx]
      exact ih rfl
    · simp only [scan, cut, if_neg hx]
      apply ih
      rw [scan_append, h]
      simp [scan, cut, hx]

/-- Without the last item of the separator a text is not cut. -/
theorem scan_cut_of_notMem {a : α} (hxs : a ∉ xs) (part : List α) :
    scan (cut (sep ++ [a])) part xs = ([], part ++ xs) := by
  induction xs generalizing part with
  | nil => simp [scan]
  | cons x xs ih =>
    have hx : ¬ sep ++ [a] <:+ part ++ [x] := by
      intro hsuffix
      obtain ⟨front, hfront⟩ := hsuffix
      rw [← List.append_assoc] at hfront
      have hlast : a = x := List.singleton_inj.mp (List.append_inj_right' hfront rfl)
      exact hxs (hlast ▸ List.mem_cons_self)
    simp only [scan, cut, if_neg hx]
    rw [ih (fun h => hxs (List.mem_cons_of_mem _ h))]
    simp

/-- A part that is followed by the same item twice. -/
theorem scan_cut_twice {a : α} (hxs : a ∉ xs) (ys : List α) :
    scan (cut [a, a]) [] (xs ++ [a, a] ++ ys) =
      (xs :: (scan (cut [a, a]) [] ys).1, (scan (cut [a, a]) [] ys).2) := by
  have hquiet : scan (cut [a, a]) [] xs = ([], xs) := by
    show scan (cut ([a] ++ [a])) [] xs = ([], xs)
    exact scan_cut_of_notMem hxs []
  have honce : ¬ [a, a] <:+ xs ++ [a] := by
    intro hsuffix
    obtain ⟨front, hfront⟩ := hsuffix
    have hxs' : front ++ [a] = xs :=
      List.append_inj_left' (by rw [List.append_assoc]; exact hfront) rfl
    exact hxs (hxs' ▸ List.mem_append_right _ List.mem_cons_self)
  have htwice : [a, a] <:+ xs ++ [a] ++ [a] := ⟨xs, by simp⟩
  rw [List.append_assoc, scan_append, hquiet]
  simp only [List.cons_append, List.nil_append, scan, cut, if_neg honce, if_pos htwice]
  simp

end Streams
