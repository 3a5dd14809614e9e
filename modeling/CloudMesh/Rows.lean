import Mathlib.Data.List.Nodup

/-!
# Lists with keys

What a key determines in a list: the value that `lookup` finds, and the row that a filter keeps.

## Main definitions

- `lookup_of_mem`, `lookup_perm` — where keys are distinct, the order does not matter
- `filter_eq_singleton` — where the values of a field are distinct, one row has each
-/

namespace CloudMesh

section Lookup

variable {α β : Type} [BEq α] [LawfulBEq α] {key : α} {value : β} {fields stored : List (α × β)}

theorem mem_of_lookup (h : fields.lookup key = some value) : (key, value) ∈ fields := by
  obtain ⟨before, after, rfl, -⟩ := List.lookup_eq_some_iff.mp h
  exact List.mem_append_right _ List.mem_cons_self

theorem lookup_of_forall_mem (hmem : (key, value) ∈ fields)
    (h : ∀ y, (key, y) ∈ fields → y = value) : fields.lookup key = some value := by
  cases hlookup : fields.lookup key with
  | none =>
    have := List.lookup_eq_none_iff.mp hlookup _ hmem
    simp at this
  | some y => exact congrArg some (h y (mem_of_lookup hlookup))

omit [BEq α] [LawfulBEq α] in
theorem eq_of_nodup_keys (hnodup : (fields.map Prod.fst).Nodup) {y : β}
    (hvalue : (key, value) ∈ fields) (hy : (key, y) ∈ fields) : y = value :=
  (Prod.mk.inj (List.inj_on_of_nodup_map hnodup hy hvalue rfl)).2

theorem lookup_of_mem (hnodup : (fields.map Prod.fst).Nodup) (h : (key, value) ∈ fields) :
    fields.lookup key = some value :=
  lookup_of_forall_mem h fun _ hy => eq_of_nodup_keys hnodup h hy

/-- The order of the keys does not matter. -/
theorem lookup_perm (hnodup : (fields.map Prod.fst).Nodup) (h : stored.Perm fields) (key : α) :
    stored.lookup key = fields.lookup key := by
  cases hstored : stored.lookup key with
  | none =>
    symm
    rw [List.lookup_eq_none_iff] at hstored ⊢
    exact fun field hfield => hstored field (h.mem_iff.mpr hfield)
  | some value => exact (lookup_of_mem hnodup (h.mem_iff.mp (mem_of_lookup hstored))).symm

end Lookup

/-- A value that a list has once. -/
theorem filter_eq_singleton {α β : Type} [DecidableEq β] {f : α → β} {l : List α} {x : α} {b : β}
    (hl : (l.map f).Nodup) (hx : x ∈ l) (hb : f x = b) :
    l.filter (fun y => f y = b) = [x] := by
  induction l with
  | nil => cases hx
  | cons y l ih =>
    rw [List.map_cons, List.nodup_cons] at hl
    rcases List.mem_cons.mp hx with rfl | hmem
    · have hrest : l.filter (fun y => f y = b) = [] := List.filter_eq_nil_iff.mpr fun y hy heq =>
        hl.1 (List.mem_map.mpr ⟨y, hy, (of_decide_eq_true heq).trans hb.symm⟩)
      rw [List.filter_cons_of_pos (by simpa using hb), hrest]
    · have hne : f y ≠ b := fun heq => hl.1 (List.mem_map.mpr ⟨x, hmem, hb.trans heq.symm⟩)
      rw [List.filter_cons_of_neg (by simpa using hne)]
      exact ih hl.2 hmem

end CloudMesh
