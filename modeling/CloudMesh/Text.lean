import Mathlib.Data.List.DropRight

/-!
# White space

## Main definitions

- `stripEnds p` — a text without what satisfies `p` at its ends
- `trim` — `String.prototype.trim`
-/

namespace CloudMesh

/-- The text from its first to its last character that does not satisfy `p`. -/
def stripEnds (p : Char → Bool) (s : List Char) : List Char := (s.dropWhile p).rdropWhile p

/-- The white space of `String.prototype.trim`. -/
def isWhiteSpace (c : Char) : Bool :=
  c.toNat ∈ [0x9, 0xa, 0xb, 0xc, 0xd, 0x20, 0xa0, 0x1680, 0x2000, 0x2001, 0x2002, 0x2003, 0x2004,
    0x2005, 0x2006, 0x2007, 0x2008, 0x2009, 0x200a, 0x2028, 0x2029, 0x202f, 0x205f, 0x3000, 0xfeff]

def trim (s : List Char) : List Char := stripEnds isWhiteSpace s

section StripEnds

variable {p q : Char → Bool} {s : List Char}

theorem rdropWhile_append_of_pos {after : List Char} (h : ∀ c ∈ after, p c = true) :
    (s ++ after).rdropWhile p = s.rdropWhile p := by
  have hrev : ∀ c ∈ after.reverse, p c = true := fun c hc => h c (List.mem_reverse.mp hc)
  rw [List.rdropWhile, List.reverse_append, List.dropWhile_append_of_pos hrev, List.rdropWhile]

theorem stripEnds_eq_self_iff :
    stripEnds p s = s ↔ s.dropWhile p = s ∧ s.rdropWhile p = s := by
  constructor
  · intro h
    have hdrop : s.dropWhile p = s := by
      have hlength : s.length ≤ (s.dropWhile p).length := by
        conv_lhs => rw [← h]
        exact (List.rdropWhile_prefix p _).length_le
      exact (List.dropWhile_suffix p).eq_of_length_le hlength
    rw [stripEnds, hdrop] at h
    exact ⟨hdrop, h⟩
  · rintro ⟨hdrop, hrdrop⟩
    rw [stripEnds, hdrop, hrdrop]

/-- A text that neither begins nor ends with what is stripped is left as it is. -/
theorem stripEnds_cons_concat {c d : Char} (hc : p c = false) (hd : p d = false)
    (mid : List Char) : stripEnds p (c :: (mid ++ [d])) = c :: (mid ++ [d]) := by
  rw [stripEnds_eq_self_iff, ← List.cons_append]
  exact ⟨List.dropWhile_cons_of_neg (by simp [hc]),
    List.rdropWhile_concat_neg _ _ _ (by simp [hd])⟩

/-- So is a text without anything to strip. -/
theorem stripEnds_of_forall (h : ∀ c ∈ s, p c = false) : stripEnds p s = s := by
  rw [stripEnds_eq_self_iff, List.rdropWhile_eq_self_iff]
  refine ⟨?_, fun hne => by simp [h _ (List.getLast_mem hne)]⟩
  cases s with
  | nil => rfl
  | cons c s => exact List.dropWhile_cons_of_neg (by simp [h c])

/-- What is put around a text that has nothing to strip is stripped off again. -/
theorem stripEnds_append {before after : List Char} (hbefore : ∀ c ∈ before, p c = true)
    (hafter : ∀ c ∈ after, p c = true) (h : stripEnds p s = s) :
    stripEnds p (before ++ (s ++ after)) = s := by
  obtain ⟨hdrop, hrdrop⟩ := stripEnds_eq_self_iff.mp h
  rw [stripEnds, List.dropWhile_append_of_pos hbefore]
  cases s with
  | nil =>
    rw [List.nil_append, List.dropWhile_eq_nil_iff.mpr hafter, List.rdropWhile_nil]
  | cons c s =>
    rw [List.dropWhile_append, hdrop, List.isEmpty_cons, if_neg (by simp),
      rdropWhile_append_of_pos hafter, hrdrop]

/-- All that is stripped off a text satisfies the predicate. -/
theorem exists_stripped (p : Char → Bool) (s : List Char) : ∃ before after,
    s = before ++ (stripEnds p s ++ after) ∧ (∀ c ∈ before, p c = true) ∧
      ∀ c ∈ after, p c = true := by
  refine ⟨s.takeWhile p, (s.dropWhile p).rtakeWhile p, ?_,
    List.all_eq_true.mp List.all_takeWhile, fun c => List.mem_rtakeWhile_imp⟩
  rw [stripEnds, List.rdropWhile_append_rtakeWhile, List.takeWhile_append_dropWhile]

/-- Two predicates strip the same off a text, if what the one strips the other does, and there is
nothing left for the other. -/
theorem stripEnds_congr (hpq : ∀ c ∈ s, p c = true → q c = true)
    (h : ∀ c ∈ stripEnds p s, q c = false) : stripEnds q s = stripEnds p s := by
  obtain ⟨before, after, hs, hbefore, hafter⟩ := exists_stripped p s
  have hq : ∀ c, c ∈ before ∨ c ∈ after → q c = true := by
    intro c hc
    refine hpq c ?_ (hc.elim (hbefore c) (hafter c))
    rw [hs]
    simp only [List.mem_append]
    tauto
  have hleft := stripEnds_append (fun c hc => hq c (.inl hc)) (fun c hc => hq c (.inr hc))
    (stripEnds_of_forall h)
  rwa [← hs] at hleft

end StripEnds

end CloudMesh
