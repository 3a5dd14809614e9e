import CloudMesh.Concurrent.System

/-!
# Noninterference by unwinding

Some processes of a system are hidden from the others. If no command of a hidden process changes
what the others can see, and the commands of the others do the same in any two states that look
alike to them, then deleting all labels of the hidden processes from a run leaves everything else
in it as it is.

## Main definitions

- `purge` — a run without the labels of the hidden processes
- `Unwinding` — the conditions on single commands
- `Unwinding.run` — what they give for runs
-/

namespace Concurrent

variable {S : Signature} {Pid σ ι η Op α : Type} [DecidableEq Pid] {sys : System S Pid σ ι η Op α}
  {hidden : Pid → Prop} [DecidablePred hidden]

/-- The label is not one of a hidden process. -/
def Label.visible (hidden : Pid → Prop) [DecidablePred hidden] : Label Pid ι η Op → Bool
  | .start p _ | .step p _ => ¬hidden p
  | .drift _ => true

def purge (hidden : Pid → Prop) [DecidablePred hidden] (ls : List (Label Pid ι η Op)) :
    List (Label Pid ι η Op) :=
  ls.filter (Label.visible hidden)

/-- `R` relates states that look alike to the processes that are not hidden. `C p` are the commands
that `p` may issue, and `A` is what is known of the steps of the run. -/
structure Unwinding (sys : System S Pid σ ι η Op α) (hidden : Pid → Prop) (R : σ → σ → Prop)
    (C : Pid → S.Cmd → Prop) (A : Config S Pid σ Op α → Action S Pid η Op → Prop) : Prop where
  code : ∀ p op, (sys.code p op).Every (C p)
  respects : ∀ {p c i s s' r s₁}, hidden p → C p c → R s s' → sys.exec p c i s = some (r, s₁) →
    R s₁ s'
  consistent : ∀ {p c i r s₁ s'} {d : Config S Pid σ Op α}, ¬hidden p → C p c →
    R d.world.shared s' → sys.exec p c i d.world.shared = some (r, s₁) → A d (.command ⟨p, c, r⟩) →
      ∃ s₁', sys.exec p c i s' = some (r, s₁') ∧ R s₁ s₁'
  drift : ∀ {e s s' s₁}, R s s' → sys.drift e s = some s₁ →
    ∃ s₁', sys.drift e s' = some s₁' ∧ R s₁ s₁'

/-- What a process runs and what it has left to do. -/
def Proc.view (P : Proc S Pid Op α) : Op × Program S α := (P.op, P.prog)

/-- `c'` is `c` as the processes that are not hidden see it. -/
structure SameView (hidden : Pid → Prop) [DecidablePred hidden] (R : σ → σ → Prop)
    (c c' : Config S Pid σ Op α) : Prop where
  shared : R c.world.shared c'.world.shared
  history : c'.world.history = c.world.history.filter fun e => ¬hidden e.pid
  procs : ∀ p, ¬hidden p → (c'.procs p).map Proc.view = (c.procs p).map Proc.view

variable {R : σ → σ → Prop} {c c' : Config S Pid σ Op α}

/-- Nobody sees what a hidden process has left to do. -/
theorem SameView.update_hidden {w : World S Pid σ} {p : Pid} {P : Option (Proc S Pid Op α)}
    (hv : SameView hidden R c c') (hp : hidden p) (hR : R w.shared c'.world.shared)
    (hh : w.history.filter (fun e => ¬hidden e.pid) =
      c.world.history.filter fun e => ¬hidden e.pid) :
    SameView hidden R ⟨w, Function.update c.procs p P⟩ c' := by
  refine ⟨hR, hv.history.trans hh.symm, fun q hq => ?_⟩
  have hqp : q ≠ p := fun heq => hq (heq.symm ▸ hp)
  show _ = (Function.update c.procs p P q).map Proc.view
  rw [hv.procs q hq, Function.update_of_ne hqp]

namespace Unwinding

variable {C : Pid → S.Cmd → Prop} {A : Config S Pid σ Op α → Action S Pid η Op → Prop}
  {d : Config S Pid σ Op α} {l : Label Pid ι η Op} {ls : List (Label Pid ι η Op)}
  {a : Action S Pid η Op}

/-- Every process of the configuration issues only its own commands. -/
def Confined (C : Pid → S.Cmd → Prop) (c : Config S Pid σ Op α) : Prop :=
  ∀ p P, c.procs p = some P → P.prog.Every (C p)

omit [DecidablePred hidden] in
theorem confined_step (u : Unwinding sys hidden R C A) (hc : Confined C c)
    (h : sys.Steps c a d) : Confined C d := by
  intro q Q hq
  cases h with
  | @start p op hp =>
    by_cases hqp : q = p
    · subst hqp
      obtain rfl := Option.some.inj ((Function.update_self q _ c.procs).symm.trans hq)
      exact u.code q op
    · exact hc q Q ((Function.update_of_ne hqp _ c.procs).symm.trans hq)
  | @command p i P cmd k r s hp hk hx =>
    by_cases hqp : q = p
    · subst hqp
      obtain rfl := Option.some.inj ((Function.update_self q _ c.procs).symm.trans hq)
      have hevery := hc q P hp
      rw [hk] at hevery
      exact hevery.2 r
    · exact hc q Q ((Function.update_of_ne hqp _ c.procs).symm.trans hq)
  | drift => exact hc q Q hq

/-- The step of a hidden process is not seen. -/
theorem hidden_step (u : Unwinding sys hidden R C A) (hc : Confined C c)
    (hv : SameView hidden R c c') (hl : l.visible hidden = false)
    (h : sys.next c l = some (a, d)) : SameView hidden R d c' := by
  cases l with
  | start p op =>
    have hp : hidden p := by simpa [Label.visible] using hl
    obtain ⟨-, -, rfl⟩ := System.next_start_eq_some.mp h
    exact hv.update_hidden hp hv.shared rfl
  | step p i =>
    have hp : hidden p := by simpa [Label.visible] using hl
    obtain ⟨P, cmd, k, r, s, hP, hk, hx, -, rfl⟩ := System.next_step_eq_some.mp h
    have hevery := hc p P hP
    rw [hk] at hevery
    exact hv.update_hidden hp (u.respects hp hevery.1 hv.shared hx) (by simp [hp])
  | drift e => simp [Label.visible] at hl

/-- The step of any other process is the same in both runs. -/
theorem visible_step (u : Unwinding sys hidden R C A) (hc : Confined C c)
    (hv : SameView hidden R c c') (hl : l.visible hidden = true) (ha : A c a)
    (h : sys.next c l = some (a, d)) :
    ∃ d', sys.next c' l = some (a, d') ∧ SameView hidden R d d' := by
  have hview : ∀ p, ¬hidden p → ∀ P P' : Proc S Pid Op α, P.view = P'.view → ∀ q, ¬hidden q →
      (Function.update c'.procs p (some P') q).map Proc.view =
        (Function.update c.procs p (some P) q).map Proc.view := by
    intro p hp P P' hP q hq
    by_cases hqp : q = p
    · subst hqp
      simp [hP]
    · rw [Function.update_of_ne hqp, Function.update_of_ne hqp, hv.procs q hq]
  cases l with
  | start p op =>
    have hp : ¬hidden p := by simpa [Label.visible] using hl
    obtain ⟨hnone, rfl, rfl⟩ := System.next_start_eq_some.mp h
    have hnone' : c'.procs p = none := by simpa [hnone] using hv.procs p hp
    exact ⟨_, System.next_start_eq_some.mpr ⟨hnone', rfl, rfl⟩, hv.shared, hv.history,
      hview p hp _ _ rfl⟩
  | step p i =>
    have hp : ¬hidden p := by simpa [Label.visible] using hl
    obtain ⟨P, cmd, k, r, s, hP, hk, hx, rfl, rfl⟩ := System.next_step_eq_some.mp h
    have hevery := hc p P hP
    rw [hk] at hevery
    obtain ⟨s', hx', hR⟩ := u.consistent hp hevery.1 hv.shared hx ha
    have hmap := hv.procs p hp
    rw [hP] at hmap
    obtain ⟨P', hP', heq⟩ := Option.map_eq_some_iff.mp hmap
    obtain ⟨hop, hprog⟩ := Prod.mk.inj heq
    refine ⟨_, System.next_step_eq_some.mpr ⟨P', cmd, k, r, s', hP', hprog.trans hk, hx', rfl,
      rfl⟩, hR, ?_, hview p hp _ _ (Prod.ext hop.symm rfl)⟩
    simp [hv.history, hp]
  | drift e =>
    obtain ⟨s, hx, rfl, rfl⟩ := System.next_drift_eq_some.mp h
    obtain ⟨s', hx', hR⟩ := u.drift hv.shared hx
    exact ⟨_, System.next_drift_eq_some.mpr ⟨s', hx', rfl, rfl⟩, hR, hv.history, hv.procs⟩

/-- Deleting the labels of the hidden processes leaves the rest of the run as it is. -/
theorem run (u : Unwinding sys hidden R C A) (hc : Confined C c) (hv : SameView hidden R c c')
    (hrun : sys.run c ls = some d) (hal : sys.Along A c ls) :
    ∃ d', sys.run c' (purge hidden ls) = some d' ∧ SameView hidden R d d' := by
  induction ls generalizing c c' with
  | nil =>
    cases hrun
    exact ⟨c', rfl, hv⟩
  | cons l ls ih =>
    obtain ⟨a, e, hl, hls⟩ := System.run_cons.mp hrun
    obtain ⟨ha, hrest⟩ := hal a e hl
    have he := u.confined_step hc (System.steps_of_next hl)
    cases hvis : l.visible hidden with
    | false =>
      obtain ⟨d', hd', hsame⟩ := ih he (u.hidden_step hc hv hvis hl) hls hrest
      exact ⟨d', by simpa [purge, hvis] using hd', hsame⟩
    | true =>
      obtain ⟨e', he', hve⟩ := u.visible_step hc hv hvis ha hl
      obtain ⟨d', hd', hsame⟩ := ih he hve hls hrest
      refine ⟨d', ?_, hsame⟩
      rw [purge, List.filter_cons_of_pos hvis]
      exact System.run_cons.mpr ⟨a, e', he', hd'⟩

end Unwinding

end Concurrent
