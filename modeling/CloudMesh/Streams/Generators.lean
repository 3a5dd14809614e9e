import Mathlib.Data.List.Basic
import Mathlib.Tactic.Tauto

/-!
# Generators

An asynchronous generator yields items and ends, or throws. A loop over one may yield items of its
own, return early, in which case it does not see how the generator ends, or throw. What matters of
an item of the generator is what kind of turn of the loop it makes, which does not depend on what
the loop has kept.

## Main definitions

- `Generated` — the items, and the error at the end
- `forAwait` — a loop with a state
- `Severed` — the loop ends without an error and without a final item, after others
- `severed_forAwait` — that is seen from the kinds of the items
-/

namespace Streams

/-- What a generator yields, and the error that it throws at last, if it does. -/
structure Generated (ε α : Type) where
  items : List α
  failure : Option ε
  deriving DecidableEq

/-- What the loop does with an item. -/
inductive Turn (ε σ β : Type)
  | throw (err : ε)
  | ret (out : Option β)
  | next (state : σ) (out : Option β)

variable {ε σ α β : Type}

/-- `for await (const item of ...)`. -/
def forAwait (step : σ → α → Turn ε σ β) (failure : Option ε) : σ → List α → Generated ε β
  | _, [] => ⟨[], failure⟩
  | state, item :: items =>
    match step state item with
    | .throw err => ⟨[], some err⟩
    | .ret out => ⟨out.toList, none⟩
    | .next state out =>
      let rest := forAwait step failure state items
      { rest with items := out.toList ++ rest.items }

/-- A generator that breaks off earlier has made the loop yield fewer items, but no others. -/
theorem forAwait_prefix (step : σ → α → Turn ε σ β) (failure failure' : Option ε) (state : σ)
    {items items' : List α} (h : items <+: items') :
    (forAwait step failure state items).items <+: (forAwait step failure' state items').items := by
  induction items generalizing state items' with
  | nil => exact List.nil_prefix
  | cons item items ih =>
    obtain ⟨rest, rfl⟩ := h
    simp only [List.cons_append, forAwait]
    split
    · exact List.prefix_rfl
    · exact List.prefix_rfl
    · exact (List.prefix_append_right_inj _).mpr (ih _ (List.prefix_append _ _))

/-- A loop over images is a loop over what they are images of. -/
theorem forAwait_map {γ : Type} {step : σ → α → Turn ε σ β} {step' : σ → γ → Turn ε σ β}
    {f : γ → α} {xs : List γ} (h : ∀ x ∈ xs, ∀ state, step state (f x) = step' state x)
    (failure : Option ε) (state : σ) :
    forAwait step failure state (xs.map f) = forAwait step' failure state xs := by
  induction xs generalizing state with
  | nil => rfl
  | cons x xs ih =>
    simp only [List.map_cons, forAwait, h x List.mem_cons_self,
      ih fun y hy => h y (List.mem_cons_of_mem _ hy)]

/-- Items that only make the loop yield. -/
theorem forAwait_of_next (step : σ → α → Turn ε σ β) {state : σ} {out : α → Option β}
    {xs : List α} (h : ∀ x ∈ xs, step state x = .next state (out x)) (failure : Option ε)
    (ys : List α) : forAwait step failure state (xs ++ ys) =
      ⟨xs.filterMap out ++ (forAwait step failure state ys).items,
        (forAwait step failure state ys).failure⟩ := by
  induction xs with
  | nil => rfl
  | cons x xs ih =>
    simp only [List.cons_append, forAwait, h x List.mem_cons_self,
      ih fun y hy => h y (List.mem_cons_of_mem _ hy)]
    cases hx : out x with
    | none => simp only [List.filterMap_cons_none hx, Option.toList_none, List.nil_append]
    | some b => simp only [List.filterMap_cons_some hx, Option.toList_some, List.cons_append,
        List.nil_append]

/-- A loop over the first items of those that it goes through, and what comes after them. -/
theorem forAwait_of_initial {γ : Type} {step : σ → α → Turn ε σ β} {state : σ} {f : γ → α}
    {out : γ → Option β} {last : γ} {xs ys zs : List γ} (failure : Option ε) (later : List α)
    (hnext : ∀ x ∈ xs, step state (f x) = .next state (out x))
    (hlast : step state (f last) = .ret none) (h : zs <+: xs ++ last :: ys) :
    (zs <+: xs ∧ forAwait step failure state (zs.map f ++ later) =
        ⟨zs.filterMap out ++ (forAwait step failure state later).items,
          (forAwait step failure state later).failure⟩) ∨
      forAwait step failure state (zs.map f ++ later) = ⟨xs.filterMap out, none⟩ := by
  induction xs generalizing zs with
  | nil =>
    cases zs with
    | nil => exact .inl ⟨List.nil_prefix, rfl⟩
    | cons z zs =>
      obtain rfl := (List.cons_prefix_cons.mp h).1
      right
      simp [forAwait, hlast]
  | cons x xs ih =>
    cases zs with
    | nil => exact .inl ⟨List.nil_prefix, rfl⟩
    | cons z zs =>
      obtain ⟨rfl, hzs⟩ := List.cons_prefix_cons.mp h
      have hz := hnext z List.mem_cons_self
      have hcons : ∀ ws, (z :: ws).filterMap out = (out z).toList ++ ws.filterMap out := by
        intro ws
        rw [List.filterMap_cons]
        cases out z <;> rfl
      obtain ⟨hopen, hitems⟩ | hitems := ih (fun y hy => hnext y (List.mem_cons_of_mem _ hy)) hzs
      · left
        refine ⟨List.cons_prefix_cons.mpr ⟨rfl, hopen⟩, ?_⟩
        simp only [List.map_cons, List.cons_append, forAwait, hz, hitems, hcons, List.append_assoc]
      · right
        simp only [List.map_cons, List.cons_append, forAwait, hz, hitems, hcons]

/-! ## Kinds of items -/

inductive Kind
  | silent
  | delta
  | final
  | closing
  | broken
  deriving DecidableEq, Repr

/-- The turn is of this kind. -/
inductive Turn.IsOf (isFinal : β → Bool) : Kind → Turn ε σ β → Prop
  | broken (err : ε) : IsOf isFinal .broken (.throw err)
  | closing : IsOf isFinal .closing (.ret none)
  | last (b : β) (h : isFinal b = true) : IsOf isFinal .final (.ret (some b))
  | final (state : σ) (b : β) (h : isFinal b = true) : IsOf isFinal .final (.next state (some b))
  | delta (state : σ) (b : β) (h : isFinal b = false) : IsOf isFinal .delta (.next state (some b))
  | silent (state : σ) : IsOf isFinal .silent (.next state none)

/-- The items before the one that closes the stream. -/
def heard (kinds : List Kind) : List Kind := kinds.takeWhile fun kind => kind ≠ .closing

/-- Nothing final comes, and the end is no error. -/
structure Unfinished (kinds : List Kind) (failed : Bool) : Prop where
  noFinal : .final ∉ heard kinds
  intact : .broken ∉ heard kinds
  quiet : .closing ∈ kinds ∨ failed = false

/-- The stream has begun, and breaks off without an error. -/
structure Severed (kinds : List Kind) (failed : Bool) : Prop extends Unfinished kinds failed where
  begun : .delta ∈ heard kinds

theorem severed_iff {kinds : List Kind} {failed : Bool} : Severed kinds failed ↔
    Unfinished kinds failed ∧ .delta ∈ heard kinds :=
  ⟨fun h => ⟨h.toUnfinished, h.begun⟩, fun h => ⟨h.1, h.2⟩⟩

theorem unfinished_iff {kinds : List Kind} {failed : Bool} : Unfinished kinds failed ↔
    .final ∉ heard kinds ∧ .broken ∉ heard kinds ∧ (.closing ∈ kinds ∨ failed = false) :=
  ⟨fun h => ⟨h.noFinal, h.intact, h.quiet⟩, fun h => ⟨h.1, h.2.1, h.2.2⟩⟩

instance (kinds : List Kind) (failed : Bool) : Decidable (Unfinished kinds failed) :=
  decidable_of_iff' _ unfinished_iff

instance (kinds : List Kind) (failed : Bool) : Decidable (Severed kinds failed) :=
  decidable_of_iff' _ severed_iff

section Kinds

variable {isFinal : β → Bool} {kind : α → Kind} {step : σ → α → Turn ε σ β} {failure : Option ε}
  (hkind : ∀ state item, (step state item).IsOf isFinal (kind item))

include hkind

theorem unfinished_forAwait (state : σ) (items : List α) :
    ((forAwait step failure state items).failure = none ∧
      ∀ b ∈ (forAwait step failure state items).items, isFinal b = false) ↔
    Unfinished (items.map kind) failure.isSome := by
  induction items generalizing state with
  | nil => cases failure <;> simp [forAwait, unfinished_iff, heard]
  | cons item items ih =>
    have hturn := hkind state item
    rw [unfinished_iff] at ih ⊢
    rw [List.map_cons, forAwait]
    cases hk : kind item with
    | broken =>
      rw [hk] at hturn
      cases hstep : step state item <;> rw [hstep] at hturn <;> cases hturn
      simp [heard]
    | closing =>
      rw [hk] at hturn
      cases hstep : step state item <;> rw [hstep] at hturn <;> cases hturn
      simp [heard]
    | final =>
      rw [hk] at hturn
      cases hstep : step state item <;> rw [hstep] at hturn <;> cases hturn <;> simp_all [heard]
    | delta =>
      rw [hk] at hturn
      cases hstep : step state item <;> rw [hstep] at hturn <;> cases hturn
      simp_all [heard]
    | silent =>
      rw [hk] at hturn
      cases hstep : step state item <;> rw [hstep] at hturn <;> cases hturn
      simp_all [heard]

theorem begun_forAwait (state : σ) (items : List α)
    (h : Unfinished (items.map kind) failure.isSome) :
    (forAwait step failure state items).items ≠ [] ↔ .delta ∈ heard (items.map kind) := by
  rw [unfinished_iff] at h
  induction items generalizing state with
  | nil => simp [forAwait, heard]
  | cons item items ih =>
    have hturn := hkind state item
    rw [List.map_cons] at h ⊢
    rw [forAwait]
    cases hk : kind item with
    | broken => simp [heard, hk] at h
    | final => simp [heard, hk] at h
    | closing =>
      rw [hk] at hturn
      cases hstep : step state item <;> rw [hstep] at hturn <;> cases hturn
      simp [heard]
    | delta =>
      rw [hk] at hturn
      cases hstep : step state item <;> rw [hstep] at hturn <;> cases hturn
      simp [heard]
    | silent =>
      rw [hk] at hturn
      cases hstep : step state item <;> rw [hstep] at hturn <;> cases hturn
      simp_all [heard]

/-- A loop that breaks off after some items, by the kinds of the items of its generator. -/
theorem severed_forAwait (state : σ) (items : List α) :
    ((forAwait step failure state items).failure = none ∧
      (forAwait step failure state items).items ≠ [] ∧
      ∀ b ∈ (forAwait step failure state items).items, isFinal b = false) ↔
    Severed (items.map kind) failure.isSome := by
  have hiff : _ ↔ Unfinished _ failure.isSome := unfinished_forAwait hkind state items
  rw [severed_iff, ← hiff]
  constructor
  · rintro ⟨hend, hsome, hdelta⟩
    have hbegun := begun_forAwait hkind state items (hiff.mp ⟨hend, hdelta⟩)
    exact ⟨⟨hend, hdelta⟩, hbegun.mp hsome⟩
  · rintro ⟨hquiet, hdelta⟩
    have hbegun := begun_forAwait hkind state items (hiff.mp hquiet)
    exact ⟨hquiet.1, hbegun.mpr hdelta, hquiet.2⟩

end Kinds

end Streams
