import CloudMesh.Concurrent.Program

/-!
# One program at a time

The meaning of a program that runs with nothing beside it: a relation says how a command may be
answered in a state and what state it leaves, and the program takes one state to another. Nothing
is assumed of the relation, so a command may have many answers or none.

## Main definitions

- `Program.Runs` — a program may take a state to another with a result
- `Program.runs_bind` — a sequence of programs
- `Program.Runs.invariant` — what every command keeps, the program keeps
-/

namespace Concurrent

variable {S : Signature} {σ ε α β : Type}

namespace Program

/-- Answered by `R`, the program takes the first state to the second one and returns the result. -/
inductive Runs (R : σ → (c : S.Cmd) → S.Ans c → σ → Prop) : Program S α → σ → α → σ → Prop
  | done (a : α) (s : σ) : Runs R (.done a) s a s
  | issue {c : S.Cmd} {k : S.Ans c → Program S α} {s s' s'' : σ} {r : S.Ans c} {a : α}
      (hc : R s c r s') (hk : Runs R (k r) s' a s'') : Runs R (.issue c k) s a s''

variable {R : σ → (c : S.Cmd) → S.Ans c → σ → Prop} {x : Program S α} {f : α → Program S β}
  {s s' s'' : σ} {a a' : α} {b : β}

theorem runs_done : (done a : Program S α).Runs R s a' s' ↔ a' = a ∧ s' = s := by
  constructor
  · rintro ⟨⟩
    exact ⟨rfl, rfl⟩
  · rintro ⟨rfl, rfl⟩
    exact .done _ _

theorem runs_issue {c : S.Cmd} {k : S.Ans c → Program S α} :
    (issue c k).Runs R s a s'' ↔ ∃ r s', R s c r s' ∧ (k r).Runs R s' a s'' := by
  constructor
  · rintro (_ | ⟨hc, hk⟩)
    exact ⟨_, _, hc, hk⟩
  · rintro ⟨r, s', hc, hk⟩
    exact .issue hc hk

theorem runs_call {c : S.Cmd} {r : S.Ans c} : (call c).Runs R s r s' ↔ R s c r s' := by
  unfold call
  rw [runs_issue]
  constructor
  · rintro ⟨r', s'', hc, hk⟩
    obtain ⟨rfl, rfl⟩ := runs_done.mp hk
    exact hc
  · exact fun hc => ⟨r, s', hc, .done _ _⟩

theorem runs_bind : (x >>= f).Runs R s b s'' ↔ ∃ a s', x.Runs R s a s' ∧ (f a).Runs R s' b s'' := by
  induction x generalizing s with
  | done a =>
    constructor
    · exact fun h => ⟨a, s, .done a s, h⟩
    · rintro ⟨a', s', hx, hf⟩
      obtain ⟨rfl, rfl⟩ := runs_done.mp hx
      exact hf
  | issue c k ih =>
    rw [issue_bind, runs_issue]
    constructor
    · rintro ⟨r, s₁, hc, hk⟩
      obtain ⟨a, s', hx, hf⟩ := (ih r).mp hk
      exact ⟨a, s', .issue hc hx, hf⟩
    · rintro ⟨a, s', hx, hf⟩
      obtain ⟨r, s₁, hc, hk⟩ := runs_issue.mp hx
      exact ⟨r, s₁, hc, (ih r).mpr ⟨a, s', hk, hf⟩⟩

/-- What every command of the program keeps is kept by the program. -/
theorem Runs.invariant {C : S.Cmd → Prop} {I : σ → Prop} (hx : x.Every C)
    (hC : ∀ s c r s', C c → R s c r s' → I s → I s') (h : x.Runs R s a s') (hs : I s) : I s' := by
  induction h with
  | done a s => exact hs
  | issue hc _ ih => exact ih (hx.2 _) (hC _ _ _ _ hx.1 hc hs)

end Program

namespace Handler

/-- Answered by `R`, the program returns or throws. -/
abbrev Runs (R : σ → (c : S.Cmd) → S.Ans c → σ → Prop) (x : Handler S ε α) :
    σ → Except ε α → σ → Prop :=
  Program.Runs R x.run

variable {R : σ → (c : S.Cmd) → S.Ans c → σ → Prop} {x : Handler S ε α} {f : α → Handler S ε β}
  {s s' s'' : σ} {a : α}

theorem runs_pure {r : Except ε α} :
    (pure a : Handler S ε α).Runs R s r s' ↔ r = .ok a ∧ s' = s :=
  Program.runs_done

theorem runs_bind {r : Except ε β} : (x >>= f).Runs R s r s'' ↔
    (∃ a s', x.Runs R s (.ok a) s' ∧ (f a).Runs R s' r s'') ∨
      ∃ e, x.Runs R s (.error e) s'' ∧ r = .error e := by
  refine (Program.runs_bind (x := x.run) (f := ExceptT.bindCont f)).trans ?_
  constructor
  · rintro ⟨a | e, s', hx, hf⟩
    · obtain ⟨rfl, rfl⟩ := Program.runs_done.mp hf
      exact .inr ⟨_, hx, rfl⟩
    · exact .inl ⟨_, s', hx, hf⟩
  · rintro (⟨a, s', hx, hf⟩ | ⟨e, hx, rfl⟩)
    · exact ⟨.ok a, s', hx, hf⟩
    · exact ⟨.error e, s'', hx, .done _ _⟩

theorem runs_tryCatch {g : ε → Handler S ε α} {r : Except ε α} :
    (tryCatch x g : Handler S ε α).Runs R s r s'' ↔
      (∃ a, x.Runs R s (.ok a) s'' ∧ r = .ok a) ∨
        ∃ e s', x.Runs R s (.error e) s' ∧ (g e).Runs R s' r s'' := by
  refine (Program.runs_bind (x := x.run)).trans ?_
  constructor
  · rintro ⟨e | a, s', hx, hf⟩
    · exact .inr ⟨_, s', hx, hf⟩
    · obtain ⟨rfl, rfl⟩ := Program.runs_done.mp hf
      exact .inl ⟨_, hx, rfl⟩
  · rintro (⟨a, hx, rfl⟩ | ⟨e, s', hx, hf⟩)
    · exact ⟨.ok a, s'', hx, .done _ _⟩
    · exact ⟨.error e, s', hx, hf⟩

end Handler

end Concurrent
