import Mathlib.Data.List.Basic

/-!
# Text that arrives in pieces

A reader that cuts a text at a separator as it arrives keeps what follows the last separator until
more comes. What it hands out depends only on the whole text and not on the pieces, and of a text
that breaks off it hands out a prefix.

## Main definitions

- `drain` — the complete lines of a text, and what is left
- `split` — all parts of a text
- `feed` — the lines of a text that arrives in pieces
- `feed_eq_drain` — the pieces do not matter
-/

namespace Streams

variable {α : Type} [DecidableEq α] (sep : α)

/-- The lines that are ended by a separator, and the rest. -/
def drain : List α → List (List α) × List α
  | [] => ([], [])
  | c :: cs =>
    let (lines, rest) := drain cs
    if c = sep then ([] :: lines, rest)
    else
      match lines with
      | [] => ([], c :: rest)
      | line :: lines => ((c :: line) :: lines, rest)

/-- The lines of the pieces, when `buffer` is left from before. -/
def feed (buffer : List α) : List (List α) → List (List α)
  | [] => []
  | piece :: pieces =>
    let (lines, rest) := drain sep (buffer ++ piece)
    lines ++ feed rest pieces

/-- The text between the separators. -/
def split (xs : List α) : List (List α) :=
  let (lines, rest) := drain sep xs
  lines ++ [rest]

variable {sep} {buffer xs ys : List α}

@[simp] theorem drain_nil : drain sep [] = ([], []) := rfl

theorem drain_cons_self : drain sep (sep :: xs) = ([] :: (drain sep xs).1, (drain sep xs).2) := by
  simp [drain]

theorem drain_cons_of_ne {c : α} (hc : c ≠ sep) : drain sep (c :: xs) =
    match (drain sep xs).1 with
    | [] => ([], c :: (drain sep xs).2)
    | line :: lines => ((c :: line) :: lines, (drain sep xs).2) := by
  simp only [drain, if_neg hc]

/-- The rest of a text has no complete line. -/
theorem drain_rest (xs : List α) : drain sep (drain sep xs).2 = ([], (drain sep xs).2) := by
  induction xs with
  | nil => rfl
  | cons c cs ih =>
    by_cases hc : c = sep
    · subst hc
      rw [drain_cons_self]
      exact ih
    · rw [drain_cons_of_ne hc]
      split
      · rw [drain_cons_of_ne hc, ih]
      · exact ih

/-- A text that goes on: the rest of its beginning is cut together with what follows. -/
theorem drain_append (xs ys : List α) : drain sep (xs ++ ys) =
    ((drain sep xs).1 ++ (drain sep ((drain sep xs).2 ++ ys)).1,
      (drain sep ((drain sep xs).2 ++ ys)).2) := by
  induction xs with
  | nil => rfl
  | cons c cs ih =>
    rw [List.cons_append]
    by_cases hc : c = sep
    · subst hc
      rw [drain_cons_self, drain_cons_self, ih]
      rfl
    · rw [drain_cons_of_ne hc, drain_cons_of_ne hc, ih]
      cases hlines : (drain sep cs).1 with
      | nil =>
        simp only [List.nil_append, List.cons_append]
        rw [drain_cons_of_ne hc]
      | cons line lines => rfl

/-- Only the whole text matters, not how it is cut into pieces. -/
theorem feed_eq_drain (hbuffer : drain sep buffer = ([], buffer)) (pieces : List (List α)) :
    feed sep buffer pieces = (drain sep (buffer ++ pieces.flatten)).1 := by
  induction pieces generalizing buffer with
  | nil => rw [List.flatten_nil, List.append_nil, hbuffer, feed]
  | cons piece pieces ih =>
    rw [feed, List.flatten_cons, ← List.append_assoc, drain_append (buffer ++ piece)]
    exact congrArg _ (ih (drain_rest _))

/-- A text that breaks off has fewer lines, but no others. -/
theorem drain_prefix (h : xs <+: ys) : (drain sep xs).1 <+: (drain sep ys).1 := by
  obtain ⟨rest, rfl⟩ := h
  rw [drain_append]
  exact List.prefix_append _ _

end Streams
