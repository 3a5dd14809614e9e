import CloudMesh.Concurrent.Program
import Mathlib.Data.List.Infix
import Mathlib.Data.Sigma.Basic

/-!
# Interleaved runs

A `System` runs any number of processes against one shared state. Each command is one atomic
step; the scheduler and the environment are the labels of a run, so a statement about every list
of labels is a statement about every interleaving. A configuration also keeps the history of all
answered commands, in which the properties of a run are stated.

## Main definitions

- `System` — what a command does, what the environment can change, and each operation's program
- `Config` — the shared state, the history and the processes
- `System.next`, `System.run` — one label, and a list of labels
- `System.Along` — every step of a run meets a condition on the configuration before it
- `System.Through` — the same for a condition on both sides of the step
-/

namespace Concurrent

variable {S : Signature} {Pid σ ι η Op α : Type}

/-- A command with the process that issued it and the answer it got. -/
structure Event (S : Signature) (Pid : Type) where
  pid : Pid
  cmd : S.Cmd
  ans : S.Ans cmd

instance [DecidableEq Pid] [DecidableEq S.Cmd] [∀ c, DecidableEq (S.Ans c)] :
    DecidableEq (Event S Pid) := fun ⟨p, c, r⟩ ⟨q, d, s⟩ =>
  decidable_of_iff (p = q ∧ (⟨c, r⟩ : (c : S.Cmd) × S.Ans c) = ⟨d, s⟩) (by simp)

/-- The shared state, with every command answered so far, the latest first. -/
structure World (S : Signature) (Pid σ : Type) where
  shared : σ
  history : List (Event S Pid)

/-- The world after `e` has been answered and left the shared state `s`. -/
def World.after (w : World S Pid σ) (e : Event S Pid) (s : σ) : World S Pid σ :=
  ⟨s, e :: w.history⟩

@[simp] theorem World.after_shared (w : World S Pid σ) (e : Event S Pid) (s : σ) :
    (w.after e s).shared = s := rfl

@[simp] theorem World.after_history (w : World S Pid σ) (e : Event S Pid) (s : σ) :
    (w.after e s).history = e :: w.history := rfl

/-- The events of one process. -/
def own [DecidableEq Pid] (p : Pid) (h : List (Event S Pid)) : List (Event S Pid) :=
  h.filter fun e => e.pid = p

section Own

variable [DecidableEq Pid] {p : Pid} {h : List (Event S Pid)} {e : Event S Pid}

@[simp] theorem own_nil (p : Pid) : own p ([] : List (Event S Pid)) = [] := rfl

@[simp] theorem mem_own : e ∈ own p h ↔ e ∈ h ∧ e.pid = p := by
  simp [own]

theorem own_cons_self (he : e.pid = p) : own p (e :: h) = e :: own p h :=
  List.filter_cons_of_pos (by simpa using he)

theorem own_cons_of_ne (he : e.pid ≠ p) : own p (e :: h) = own p h :=
  List.filter_cons_of_neg (by simpa using he)

theorem own_eq_nil : own p h = [] ↔ ∀ e ∈ h, e.pid ≠ p := by
  simp [own, List.filter_eq_nil_iff]

end Own

/-- A process: the operation it runs, the history at its start, and what it has left to do. -/
structure Proc (S : Signature) (Pid Op α : Type) where
  op : Op
  since : List (Event S Pid)
  prog : Program S α

structure Config (S : Signature) (Pid σ Op α : Type) where
  world : World S Pid σ
  procs : Pid → Option (Proc S Pid Op α)

/-- No process has started and nothing has happened. -/
def Config.init (s : σ) : Config S Pid σ Op α := ⟨⟨s, []⟩, fun _ => none⟩

/-- One choice of the scheduler: a new process, the next command of a process (with whatever the
environment decides about its answer), or a change by the environment itself. -/
inductive Label (Pid ι η Op : Type)
  | start (p : Pid) (op : Op)
  | step (p : Pid) (i : ι)
  | drift (e : η)

/-- What one step of a run did. -/
inductive Action (S : Signature) (Pid η Op : Type)
  | start (p : Pid) (op : Op)
  | command (e : Event S Pid)
  | drift (e : η)

/-- `exec p c i s` is the answer to `c` issued by `p` in state `s` and the state it leaves; `i`
is what the environment decides, and `none` means that `c` cannot be answered so. -/
structure System (S : Signature) (Pid σ ι η Op α : Type) where
  exec : Pid → (c : S.Cmd) → ι → σ → Option (S.Ans c × σ)
  drift : η → σ → Option σ
  code : Pid → Op → Program S α

namespace System

variable [DecidableEq Pid] (sys : System S Pid σ ι η Op α)

/-- One step of process `P` of `p`, with what it did. -/
def stepProc (c : Config S Pid σ Op α) (p : Pid) (P : Proc S Pid Op α) (i : ι) :
    Option (Action S Pid η Op × Config S Pid σ Op α) :=
  match P.prog with
  | .done _ => none
  | .issue cmd k =>
    (sys.exec p cmd i c.world.shared).map fun (r, s) =>
      (.command ⟨p, cmd, r⟩,
        ⟨c.world.after ⟨p, cmd, r⟩ s, Function.update c.procs p (some { P with prog := k r })⟩)

/-- One label, with what it did; `none` if it is not enabled. -/
def next (c : Config S Pid σ Op α) :
    Label Pid ι η Op → Option (Action S Pid η Op × Config S Pid σ Op α)
  | .start p op =>
    match c.procs p with
    | some _ => none
    | none =>
      some (.start p op, ⟨c.world,
        Function.update c.procs p (some ⟨op, c.world.history, sys.code p op⟩)⟩)
  | .step p i =>
    match c.procs p with
    | none => none
    | some P => sys.stepProc c p P i
  | .drift e =>
    (sys.drift e c.world.shared).map fun s => (.drift e, ⟨⟨s, c.world.history⟩, c.procs⟩)

/-- A list of labels; `none` if one of them is not enabled. -/
def run : Config S Pid σ Op α → List (Label Pid ι η Op) → Option (Config S Pid σ Op α)
  | c, [] => some c
  | c, l :: ls => (sys.next c l).bind fun (_, d) => run d ls

/-- Every step of the run of `ls` from `c` meets `A` in the configuration before it. -/
def Along (A : Config S Pid σ Op α → Action S Pid η Op → Prop) :
    Config S Pid σ Op α → List (Label Pid ι η Op) → Prop
  | _, [] => True
  | c, l :: ls => ∀ a d, sys.next c l = some (a, d) → A c a ∧ Along A d ls

/-- Every step of the run of `ls` from `c` meets `A`, which sees what the step leads to. -/
def Through (A : Config S Pid σ Op α → Action S Pid η Op → Config S Pid σ Op α → Prop) :
    Config S Pid σ Op α → List (Label Pid ι η Op) → Prop
  | _, [] => True
  | c, l :: ls => ∀ a d, sys.next c l = some (a, d) → A c a d ∧ Through A d ls

/-- A condition on steps that can be evaluated can be evaluated along a run. -/
instance decidableAlong (A : Config S Pid σ Op α → Action S Pid η Op → Prop)
    [∀ c a, Decidable (A c a)] :
    (c : Config S Pid σ Op α) → (ls : List (Label Pid ι η Op)) → Decidable (sys.Along A c ls)
  | _, [] => isTrue trivial
  | c, l :: ls =>
    match hn : sys.next c l with
    | none => isTrue fun a d h => nomatch hn.symm.trans h
    | some (a, d) =>
      have := decidableAlong A d ls
      decidable_of_iff (A c a ∧ sys.Along A d ls)
        ⟨fun h _ _ h' => by cases hn.symm.trans h'; exact h, fun h => h a d hn⟩

instance decidableThrough
    (A : Config S Pid σ Op α → Action S Pid η Op → Config S Pid σ Op α → Prop)
    [∀ c a d, Decidable (A c a d)] :
    (c : Config S Pid σ Op α) → (ls : List (Label Pid ι η Op)) → Decidable (sys.Through A c ls)
  | _, [] => isTrue trivial
  | c, l :: ls =>
    match hn : sys.next c l with
    | none => isTrue fun a d h => nomatch hn.symm.trans h
    | some (a, d) =>
      have := decidableThrough A d ls
      decidable_of_iff (A c a d ∧ sys.Through A d ls)
        ⟨fun h _ _ h' => by cases hn.symm.trans h'; exact h, fun h => h a d hn⟩

variable {sys} {c d e : Config S Pid σ Op α} {l : Label Pid ι η Op}
  {ls ls' : List (Label Pid ι η Op)}
  {a : Action S Pid η Op} {A B : Config S Pid σ Op α → Action S Pid η Op → Prop}

/-- The only three things a label can do. -/
inductive Steps (sys : System S Pid σ ι η Op α) (c : Config S Pid σ Op α) :
    Action S Pid η Op → Config S Pid σ Op α → Prop
  | start {p : Pid} {op : Op} (hp : c.procs p = none) : Steps sys c (.start p op)
      ⟨c.world, Function.update c.procs p (some ⟨op, c.world.history, sys.code p op⟩)⟩
  | command {p : Pid} {i : ι} {P : Proc S Pid Op α} {cmd : S.Cmd} {k : S.Ans cmd → Program S α}
      {r : S.Ans cmd} {s : σ} (hp : c.procs p = some P) (hk : P.prog = .issue cmd k)
      (hx : sys.exec p cmd i c.world.shared = some (r, s)) : Steps sys c (.command ⟨p, cmd, r⟩)
      ⟨c.world.after ⟨p, cmd, r⟩ s, Function.update c.procs p (some { P with prog := k r })⟩
  | drift {e : η} {s : σ} (hx : sys.drift e c.world.shared = some s) :
      Steps sys c (.drift e) ⟨⟨s, c.world.history⟩, c.procs⟩

theorem next_start_eq_some {p : Pid} {op : Op} : sys.next c (.start p op) = some (a, d) ↔
    c.procs p = none ∧ a = .start p op ∧
      d = ⟨c.world, Function.update c.procs p (some ⟨op, c.world.history, sys.code p op⟩)⟩ := by
  cases hp : c.procs p with
  | some P => simp [next, hp]
  | none => simp [next, hp, eq_comm]

theorem next_step_eq_some {p : Pid} {i : ι} : sys.next c (.step p i) = some (a, d) ↔
    ∃ P cmd k r s, c.procs p = some P ∧ P.prog = .issue cmd k ∧
      sys.exec p cmd i c.world.shared = some (r, s) ∧ a = .command ⟨p, cmd, r⟩ ∧
      d = ⟨c.world.after ⟨p, cmd, r⟩ s,
        Function.update c.procs p (some { P with prog := k r })⟩ := by
  cases hp : c.procs p with
  | none => simp [next, hp]
  | some P =>
    cases hk : P.prog with
    | done r => simp [next, stepProc, hp, hk]
    | issue cmd k =>
      simp only [next, stepProc, hp, hk, Option.map_eq_some_iff, Prod.exists, Prod.mk.injEq]
      constructor
      · rintro ⟨r, s, hx, rfl, rfl⟩
        exact ⟨P, cmd, k, r, s, rfl, hk, hx, rfl, rfl⟩
      · rintro ⟨P', cmd', k', r, s, hP, hk', hx, rfl, rfl⟩
        obtain rfl := Option.some.inj hP
        cases hk.symm.trans hk'
        exact ⟨r, s, hx, rfl, rfl⟩

theorem next_drift_eq_some {e : η} : sys.next c (.drift e) = some (a, d) ↔
    ∃ s, sys.drift e c.world.shared = some s ∧ a = .drift e ∧
      d = ⟨⟨s, c.world.history⟩, c.procs⟩ := by
  simp only [next, Option.map_eq_some_iff, Prod.mk.injEq]
  constructor
  · rintro ⟨s, hx, rfl, rfl⟩
    exact ⟨s, hx, rfl, rfl⟩
  · rintro ⟨s, hx, rfl, rfl⟩
    exact ⟨s, hx, rfl, rfl⟩

theorem steps_of_next (h : sys.next c l = some (a, d)) : sys.Steps c a d := by
  cases l with
  | start p op =>
    obtain ⟨hp, rfl, rfl⟩ := next_start_eq_some.mp h
    exact .start hp
  | step p i =>
    obtain ⟨P, cmd, k, r, s, hp, hk, hx, rfl, rfl⟩ := next_step_eq_some.mp h
    exact .command hp hk hx
  | drift e =>
    obtain ⟨s, hx, rfl, rfl⟩ := next_drift_eq_some.mp h
    exact .drift hx

@[simp] theorem run_nil : sys.run c [] = some c := rfl

theorem run_cons : sys.run c (l :: ls) = some e ↔
    ∃ a d, sys.next c l = some (a, d) ∧ sys.run d ls = some e := by
  simp only [run, Option.bind_eq_some_iff, Prod.exists]

theorem run_append : sys.run c (ls ++ ls') = some e ↔
    ∃ d, sys.run c ls = some d ∧ sys.run d ls' = some e := by
  induction ls generalizing c with
  | nil => simp
  | cons l ls ih =>
    simp only [List.cons_append, run_cons, ih]
    constructor
    · rintro ⟨a, d, hl, d', hls, he⟩
      exact ⟨d', ⟨a, d, hl, hls⟩, he⟩
    · rintro ⟨d', ⟨a, d, hl, hls⟩, he⟩
      exact ⟨a, d, hl, d', hls, he⟩

theorem along_of_forall (h : ∀ c a, A c a) (c : Config S Pid σ Op α)
    (ls : List (Label Pid ι η Op)) : sys.Along A c ls := by
  induction ls generalizing c with
  | nil => trivial
  | cons l ls ih => exact fun a d _ => ⟨h _ _, ih d⟩

theorem Along.and (hA : sys.Along A c ls) (hB : sys.Along B c ls) :
    sys.Along (fun c a => A c a ∧ B c a) c ls := by
  induction ls generalizing c with
  | nil => trivial
  | cons l ls ih =>
    intro a d hn
    have ⟨ha, hAd⟩ := hA a d hn
    have ⟨hb, hBd⟩ := hB a d hn
    exact ⟨⟨ha, hb⟩, ih hAd hBd⟩

theorem along_append (hrun : sys.run c ls = some d) :
    sys.Along A c (ls ++ ls') ↔ sys.Along A c ls ∧ sys.Along A d ls' := by
  induction ls generalizing c with
  | nil => cases hrun; simp [Along]
  | cons l ls ih =>
    obtain ⟨a, e, hl, hls⟩ := run_cons.mp hrun
    simp only [List.cons_append, Along, hl, Option.some.injEq, Prod.mk.injEq, and_imp,
      forall_apply_eq_imp_iff, forall_eq', ih hls, and_assoc]

theorem Along.through (h : sys.Along A c ls) : sys.Through (fun c a _ => A c a) c ls := by
  induction ls generalizing c with
  | nil => trivial
  | cons l ls ih => exact fun a d hn => ⟨(h a d hn).1, ih (h a d hn).2⟩

theorem Through.and {A B : Config S Pid σ Op α → Action S Pid η Op → Config S Pid σ Op α → Prop}
    (hA : sys.Through A c ls) (hB : sys.Through B c ls) :
    sys.Through (fun c a d => A c a d ∧ B c a d) c ls := by
  induction ls generalizing c with
  | nil => trivial
  | cons l ls ih =>
    intro a d hn
    have ⟨ha, hAd⟩ := hA a d hn
    have ⟨hb, hBd⟩ := hB a d hn
    exact ⟨⟨ha, hb⟩, ih hAd hBd⟩

/-- A property of configurations that every permitted step keeps holds after every run. -/
theorem run_induction_through {I : Config S Pid σ Op α → Prop}
    {A : Config S Pid σ Op α → Action S Pid η Op → Config S Pid σ Op α → Prop}
    (hstep : ∀ c a d, I c → A c a d → sys.Steps c a d → I d)
    (hc : I c) (hrun : sys.run c ls = some d) (hal : sys.Through A c ls) : I d := by
  induction ls generalizing c with
  | nil => cases hrun; exact hc
  | cons l ls ih =>
    obtain ⟨a, e, hl, hls⟩ := run_cons.mp hrun
    have ⟨ha, hrest⟩ := hal a e hl
    exact ih (hstep c a e hc ha (steps_of_next hl)) hls hrest

theorem run_induction {I : Config S Pid σ Op α → Prop}
    (hstep : ∀ c a d, I c → A c a → sys.Steps c a d → I d)
    (hc : I c) (hrun : sys.run c ls = some d) (hal : sys.Along A c ls) : I d :=
  run_induction_through hstep hc hrun hal.through

theorem Steps.history_suffix (h : sys.Steps c a d) : c.world.history <:+ d.world.history := by
  cases h with
  | start => exact List.suffix_rfl
  | command => exact List.suffix_cons _ _
  | drift => exact List.suffix_rfl

theorem run_history_suffix (hrun : sys.run c ls = some d) :
    c.world.history <:+ d.world.history := by
  induction ls generalizing c with
  | nil => cases hrun; exact List.suffix_rfl
  | cons l ls ih =>
    obtain ⟨a, e, hl, hls⟩ := run_cons.mp hrun
    exact (steps_of_next hl).history_suffix.trans (ih hls)

/-- A process that starts during a run has seen everything before it. -/
theorem history_suffix_since {p : Pid} {P : Proc S Pid Op α} (hrun : sys.run c ls = some d)
    (hc : c.procs p = none) (hd : d.procs p = some P) : c.world.history <:+ P.since := by
  let I (x : Config S Pid σ Op α) : Prop := c.world.history <:+ x.world.history ∧
    ∀ P, x.procs p = some P → c.world.history <:+ P.since
  have hI : I d := by
    refine run_induction (fun x _ y (hx : I x) (_ : True) hxy => ?_)
      ⟨List.suffix_rfl, fun P hp => absurd (hc.symm.trans hp) (by simp)⟩ hrun
      (along_of_forall (fun _ _ => trivial) _ _)
    refine ⟨hx.1.trans hxy.history_suffix, fun P hp => ?_⟩
    cases hxy with
    | @start q op hq =>
      by_cases hpq : p = q
      · subst hpq
        obtain rfl := Option.some.inj ((Function.update_self p _ x.procs).symm.trans hp)
        exact hx.1
      · exact hx.2 P ((Function.update_of_ne hpq _ x.procs).symm.trans hp)
    | @command q i Q cmd k r s hq hk hxs =>
      by_cases hpq : p = q
      · subst hpq
        obtain rfl := Option.some.inj ((Function.update_self p _ x.procs).symm.trans hp)
        exact hx.2 Q hq
      · exact hx.2 P ((Function.update_of_ne hpq _ x.procs).symm.trans hp)
    | drift => exact hx.2 P hp
  exact hI.2 P hd

end System

end Concurrent
