import CloudMesh.Concurrent.System

/-!
# Programs among other programs

A rule for processes whose steps depend on what the others leave alone. A `Pact` says what holds of
the world at all times and what each process may rely on. A program is safe when every command it
issues, after whatever the others have done in the meantime, keeps the pact; the programs of a
system may then be checked one at a time.

## Main definitions

- `Pact` — an invariant, a rely for each process, and the steps that are considered
- `Pact.Safe` — a program keeps the pact, and ends with a postcondition
- `Pact.safe_bind` — one program after the other
- `Pact.secured_run` — a system of safe programs keeps the pact on every run
-/

namespace Concurrent

variable {S : Signature} {Pid σ ι η Op α β : Type}

/-- `rely p` relates two worlds between which only the others and the environment have moved. -/
structure Pact (S : Signature) (Pid σ η Op : Type) where
  inv : World S Pid σ → Prop
  rely : Pid → World S Pid σ → World S Pid σ → Prop
  permits : World S Pid σ → Action S Pid η Op → Prop
  refl : ∀ p w, rely p w w
  trans : ∀ p {w w' w''}, rely p w w' → rely p w' w'' → rely p w w''

namespace Pact

variable (K : Pact S Pid σ η Op)

/-- The step takes a world of the pact to another one, and all but `p` may rely on it. -/
structure Keeps (p : Option Pid) (w w' : World S Pid σ) : Prop where
  inv : K.inv w'
  rely : ∀ q, some q ≠ p → K.rely q w w'

/-- From `w` on, process `p` keeps the pact with a program and ends it with `Q`. -/
def Safe (exec : Pid → (c : S.Cmd) → ι → σ → Option (S.Ans c × σ)) (p : Pid)
    (Q : World S Pid σ → α → Prop) : Program S α → World S Pid σ → Prop
  | .done a, w => ∀ w', K.rely p w w' → K.inv w' → Q w' a
  | .issue c k, w => ∀ w', K.rely p w w' → K.inv w' → ∀ i r s,
      exec p c i w'.shared = some (r, s) → K.permits w' (.command ⟨p, c, r⟩) →
        K.Keeps p w' (w'.after ⟨p, c, r⟩ s) ∧ Safe exec p Q (k r) (w'.after ⟨p, c, r⟩ s)

variable {K} {exec : Pid → (c : S.Cmd) → ι → σ → Option (S.Ans c × σ)} {p : Pid}
  {Q : World S Pid σ → α → Prop} {w w' : World S Pid σ}

/-- What the others do leaves a program safe. -/
theorem Safe.of_rely {x : Program S α} (h : K.Safe exec p Q x w) (hr : K.rely p w w') :
    K.Safe exec p Q x w' := by
  cases x with
  | done a => exact fun w'' hr' => h w'' (K.trans p hr hr')
  | issue c k => exact fun w'' hr' => h w'' (K.trans p hr hr')

/-- A weaker postcondition. -/
theorem Safe.mono {R : World S Pid σ → α → Prop} {x : Program S α} (h : K.Safe exec p Q x w)
    (hQ : ∀ w' a, K.inv w' → Q w' a → R w' a) : K.Safe exec p R x w := by
  induction x generalizing w with
  | done a => exact fun w' hr hinv => hQ w' a hinv (h w' hr hinv)
  | issue c k ih =>
    intro w' hr hinv i r s hx hper
    obtain ⟨hkeeps, hk⟩ := h w' hr hinv i r s hx hper
    exact ⟨hkeeps, ih r hk⟩

/-- A program after another one. -/
theorem safe_bind {x : Program S α} {f : α → Program S β} {R : World S Pid σ → β → Prop}
    (h : K.Safe exec p (fun w' a => K.Safe exec p R (f a) w') x w) (hw : K.inv w) :
    K.Safe exec p R (x >>= f) w := by
  induction x generalizing w with
  | done a => exact h w (K.refl p w) hw
  | issue c k ih =>
    intro w' hr hinv i r s hx hper
    obtain ⟨hkeeps, hk⟩ := h w' hr hinv i r s hx hper
    exact ⟨hkeeps, ih r hk hkeeps.inv⟩

variable [DecidableEq Pid] {sys : System S Pid σ ι η Op α} {c d : Config S Pid σ Op α}
  {a : Action S Pid η Op} {ls : List (Label Pid ι η Op)}

/-- The pact holds and every process is safe; who has not started has done nothing. -/
structure Secured (K : Pact S Pid σ η Op) (sys : System S Pid σ ι η Op α)
    (Q : Pid → Op → World S Pid σ → α → Prop) (c : Config S Pid σ Op α) : Prop where
  inv : K.inv c.world
  safe : ∀ p P, c.procs p = some P → K.Safe sys.exec p (Q p P.op) P.prog c.world
  fresh : ∀ p, c.procs p = none → ∀ e ∈ c.world.history, e.pid ≠ p

/-- Every program is safe from its start, and so is what the environment does. -/
structure Complies (K : Pact S Pid σ η Op) (sys : System S Pid σ ι η Op α)
    (Q : Pid → Op → World S Pid σ → α → Prop) : Prop where
  code : ∀ p op w, K.inv w → (∀ e ∈ w.history, e.pid ≠ p) →
    K.Safe sys.exec p (Q p op) (sys.code p op) w
  drift : ∀ e w s, K.inv w → K.permits w (.drift e) → sys.drift e w.shared = some s →
    K.Keeps none w ⟨s, w.history⟩

variable {Q : Pid → Op → World S Pid σ → α → Prop}

theorem Secured.start {p : Pid} {op : Op} (h : Secured K sys Q c) (hs : Complies K sys Q)
    (hp : c.procs p = none) : Secured K sys Q ⟨c.world,
      Function.update c.procs p (some ⟨op, c.world.history, sys.code p op⟩)⟩ := by
  refine ⟨h.inv, fun q P hq => ?_, fun q hq => ?_⟩
  · by_cases hqp : q = p
    · subst hqp
      obtain rfl := Option.some.inj ((Function.update_self q _ c.procs).symm.trans hq)
      exact hs.code q op c.world h.inv (h.fresh q hp)
    · exact h.safe q P (Function.update_of_ne hqp _ c.procs ▸ hq)
  · by_cases hqp : q = p
    · subst hqp
      simp at hq
    · exact h.fresh q (Function.update_of_ne hqp _ c.procs ▸ hq)

theorem Secured.command {p : Pid} {i : ι} {P : Proc S Pid Op α} {cmd : S.Cmd}
    {k : S.Ans cmd → Program S α} {r : S.Ans cmd} {s : σ} (h : Secured K sys Q c)
    (hp : c.procs p = some P) (hk : P.prog = .issue cmd k)
    (hx : sys.exec p cmd i c.world.shared = some (r, s))
    (hper : K.permits c.world (.command ⟨p, cmd, r⟩)) :
    Secured K sys Q ⟨c.world.after ⟨p, cmd, r⟩ s,
      Function.update c.procs p (some { P with prog := k r })⟩ := by
  have hsafe := h.safe p P hp
  rw [hk] at hsafe
  obtain ⟨hkeeps, hrest⟩ := hsafe c.world (K.refl p _) h.inv i r s hx hper
  refine ⟨hkeeps.inv, fun q P' hq => ?_, fun q hq => ?_⟩
  · by_cases hqp : q = p
    · subst hqp
      obtain rfl := Option.some.inj ((Function.update_self q _ c.procs).symm.trans hq)
      exact hrest
    · -- the others rely on what `p` keeps
      have hq := h.safe q P' (Function.update_of_ne hqp _ c.procs ▸ hq)
      exact hq.of_rely (hkeeps.rely q fun heq => hqp (Option.some.inj heq))
  · have hqp : q ≠ p := by
      rintro rfl
      simp at hq
    intro e he
    rcases List.mem_cons.mp he with rfl | he
    · exact Ne.symm hqp
    · exact h.fresh q (Function.update_of_ne hqp _ c.procs ▸ hq) e he

theorem Secured.step (h : Secured K sys Q c) (hs : Complies K sys Q) (hper : K.permits c.world a)
    (hstep : sys.Steps c a d) : Secured K sys Q d := by
  cases hstep with
  | start hp => exact h.start hs hp
  | command hp hk hx => exact h.command hp hk hx hper
  | drift hx =>
    have hkeeps := hs.drift _ _ _ h.inv hper hx
    refine ⟨hkeeps.inv, fun q P hq => ?_, h.fresh⟩
    exact (h.safe q P hq).of_rely (hkeeps.rely q (Option.some_ne_none q))

theorem secured_run {s : σ} (hs : Complies K sys Q) (hinv : K.inv ⟨s, []⟩)
    (hrun : sys.run (.init s) ls = some c)
    (hal : sys.Along (fun c => K.permits c.world) (.init s) ls) : Secured K sys Q c := by
  refine System.run_induction (fun _ _ _ hc hper hstep => hc.step hs hper hstep) ?_ hrun hal
  refine ⟨hinv, fun p P hp => ?_, fun p _ e he => absurd he List.not_mem_nil⟩
  cases hp

omit [DecidableEq Pid] in
/-- A process that has returned is in its postcondition. -/
theorem Secured.result {p : Pid} {P : Proc S Pid Op α} {r : α} (h : Secured K sys Q c)
    (hp : c.procs p = some P) (hr : P.prog = .done r) : Q p P.op c.world r := by
  have hsafe := h.safe p P hp
  rw [hr] at hsafe
  exact hsafe c.world (K.refl p _) h.inv

end Pact

end Concurrent
