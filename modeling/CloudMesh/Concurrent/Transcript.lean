import CloudMesh.Concurrent.System

/-!
# What a process does on its own

A process knows of a run only the answers to its own commands: its transcript. A program follows a
rule `M` if, whatever it is answered, every command it issues is allowed by `M` after the
transcript before it, and it ends in `Q`. This is a property of one program, with no other process
in it; that every process of a run follows its program's rule is proved once, and the invariants of
a system are then proved from the rules, one step at a time.

## Main definitions

- `transcript` — the exchanges of one process
- `Program.Follows` — a program follows a rule and ends in its postcondition
- `System.Obeys` — every process's program follows its rule
-/

namespace Concurrent

variable {S : Signature} {Pid σ ι η Op α β γ ε : Type}

/-- A command with its answer. -/
abbrev Exchange (S : Signature) := (c : S.Cmd) × S.Ans c

/-- What a process has done so far, the latest first. -/
abbrev Transcript (S : Signature) := List (Exchange S)

section Transcript

variable [DecidableEq Pid] {p q : Pid} {h h' : List (Event S Pid)} {c : S.Cmd} {r : S.Ans c}

/-- The exchanges of `p` in a history. -/
def transcript (p : Pid) (h : List (Event S Pid)) : Transcript S :=
  (own p h).map fun e => ⟨e.cmd, e.ans⟩

@[simp] theorem transcript_nil (p : Pid) : transcript p ([] : List (Event S Pid)) = [] := rfl

theorem transcript_cons_self : transcript p (⟨p, c, r⟩ :: h) = ⟨c, r⟩ :: transcript p h := by
  simp [transcript, own]

theorem transcript_cons_of_ne (hqp : q ≠ p) : transcript p (⟨q, c, r⟩ :: h) = transcript p h := by
  simp [transcript, own, hqp]

@[simp] theorem mem_transcript : (⟨c, r⟩ : Exchange S) ∈ transcript p h ↔ ⟨p, c, r⟩ ∈ h := by
  simp only [transcript, List.mem_map, mem_own]
  constructor
  · rintro ⟨⟨q, c', r'⟩, ⟨he, rfl⟩, heq⟩
    cases heq
    exact he
  · exact fun he => ⟨_, ⟨he, rfl⟩, rfl⟩

theorem transcript_suffix (hle : h <:+ h') : transcript p h <:+ transcript p h' := by
  obtain ⟨later, rfl⟩ := hle
  exact ⟨transcript p later, by simp [transcript, own]⟩

theorem transcript_eq_nil : transcript p h = [] ↔ ∀ e ∈ h, e.pid ≠ p := by
  simp [transcript, own_eq_nil]

end Transcript

namespace Program

variable {M M' : Transcript S → S.Cmd → Prop} {P P' : Transcript S → Prop}
  {Q Q' : β → Transcript S → Prop} {R : γ → Transcript S → Prop} {t : Transcript S}

/-- After the transcript `t`, the program issues only commands that `M` allows and ends in `Q`. -/
def Follows (M : Transcript S → S.Cmd → Prop) (Q : β → Transcript S → Prop) :
    Program S β → Transcript S → Prop
  | .done a, t => Q a t
  | .issue c k, t => M t c ∧ ∀ r, (k r).Follows M Q (⟨c, r⟩ :: t)

theorem Follows.bind {x : Program S β} {f : β → Program S γ} (hx : x.Follows M Q t)
    (hf : ∀ a t', Q a t' → (f a).Follows M R t') : (x >>= f).Follows M R t := by
  induction x generalizing t with
  | done a => exact hf a t hx
  | issue c k ih => exact ⟨hx.1, fun r => ih r (hx.2 r)⟩

theorem Follows.mono {x : Program S β} (hx : x.Follows M Q t) (hM : ∀ t c, M t c → M' t c)
    (hQ : ∀ a t, Q a t → Q' a t) : x.Follows M' Q' t := by
  induction x generalizing t with
  | done a => exact hQ a t hx
  | issue c k ih => exact ⟨hM t c hx.1, fun r => ih r (hx.2 r)⟩

/-- What no command can undo may be added to all conditions. -/
theorem Follows.frame {F : Transcript S → Prop} {x : Program S β} (hx : x.Follows M Q t)
    (hF : ∀ t e, F t → F (e :: t)) (hM : ∀ t c, M t c → F t → M' t c) (ht : F t) :
    x.Follows M' (fun a t => Q a t ∧ F t) t := by
  induction x generalizing t with
  | done a => exact ⟨hx, ht⟩
  | issue c k ih => exact ⟨hM t c hx.1 ht, fun r => ih r (hx.2 r) (hF t _ ht)⟩

/-- What every command of the program satisfies may be added to its rule. -/
theorem Follows.and_every {C : S.Cmd → Prop} {x : Program S β} (hx : x.Follows M Q t)
    (hC : x.Every C) : x.Follows (fun t c => M t c ∧ C c) Q t := by
  induction x generalizing t with
  | done a => exact hx
  | issue c k ih => exact ⟨⟨hx.1, hC.1⟩, fun r => ih r (hx.2 r) (hC.2 r)⟩

/-- From every transcript with `P`, the program follows `M` and ends in `Q`. -/
def Triple (M : Transcript S → S.Cmd → Prop) (P : Transcript S → Prop) (x : Program S β)
    (Q : β → Transcript S → Prop) : Prop :=
  ∀ t, P t → x.Follows M Q t

theorem Triple.done {a : β} (h : ∀ t, P t → Q a t) : Triple M P (.done a) Q := h

theorem Triple.call {c : S.Cmd} {Q : S.Ans c → Transcript S → Prop} (hM : ∀ t, P t → M t c)
    (hQ : ∀ t r, P t → Q r (⟨c, r⟩ :: t)) : Triple M P (call c) Q :=
  fun t h => ⟨hM t h, fun r => hQ t r h⟩

theorem Triple.bind {x : Program S β} {f : β → Program S γ} (hx : Triple M P x Q)
    (hf : ∀ a, Triple M (Q a) (f a) R) : Triple M P (x >>= f) R :=
  fun t h => (hx t h).bind fun a t' hQ => hf a t' hQ

theorem Triple.conseq {x : Program S β} (hx : Triple M P x Q) (hP : ∀ t, P' t → P t)
    (hQ : ∀ a t, Q a t → Q' a t) : Triple M P' x Q' :=
  fun t h => (hx t (hP t h)).mono (fun _ _ h => h) hQ

/-- What no command of the program can falsify still holds when it ends. -/
theorem Triple.of_every {C : S.Cmd → Prop} {x : Program S β} (hx : x.Every C)
    (hM : ∀ t c, P t → C c → M t c) (hP : ∀ t c r, P t → C c → P (⟨c, r⟩ :: t)) :
    Triple M P x fun _ => P := by
  intro t ht
  induction x generalizing t with
  | done a => exact ht
  | issue c k ih => exact ⟨hM t c ht hx.1, fun r => ih r (hx.2 r) _ (hP t c r ht hx.1)⟩

/-! ### Ends that can be reached -/

/-- On some answers, the program ends in `a` with the transcript `t'`. -/
inductive Ends {β : Type} : Program S β → Transcript S → β → Transcript S → Prop
  | done (a : β) (t : Transcript S) : Ends (.done a) t a t
  | issue {c : S.Cmd} {k : S.Ans c → Program S β} {t t' : Transcript S} {a : β} (r : S.Ans c)
      (h : Ends (k r) (⟨c, r⟩ :: t) a t') : Ends (.issue c k) t a t'

theorem Ends.bind {x : Program S β} {f : β → Program S γ} {a : β} {b : γ} {t' t'' : Transcript S}
    (hx : x.Ends t a t') (hf : (f a).Ends t' b t'') : (x >>= f).Ends t b t'' := by
  induction hx with
  | done a t => exact hf
  | issue r h ih => exact .issue r (ih hf)

theorem Ends.suffix {x : Program S β} {a : β} {t' : Transcript S} (hx : x.Ends t a t') :
    t <:+ t' := by
  induction hx with
  | done a t => exact List.suffix_rfl
  | issue r _ ih => exact (List.suffix_cons _ _).trans ih

/-- Where a program that follows a rule has ended, its postcondition holds. -/
theorem Follows.ends {x : Program S β} {a : β} {t' : Transcript S} (h : x.Follows M Q t)
    (hx : x.Ends t a t') : Q a t' := by
  induction hx with
  | done a t => exact h
  | issue r _ ih => exact ih (h.2 r)

/-- A program that keeps to what `M` always allows comes to one of its ends. -/
theorem follows_ends {C : S.Cmd → Prop} {x : Program S β} (hx : x.Every C)
    (hM : ∀ t', t <:+ t' → ∀ c, C c → M t' c) : x.Follows M (fun a t' => x.Ends t a t') t := by
  induction x generalizing t with
  | done a => exact .done a t
  | issue c k ih =>
    refine ⟨hM t List.suffix_rfl c hx.1, fun r => ?_⟩
    have hrest : ∀ t', ⟨c, r⟩ :: t <:+ t' → ∀ c, C c → M t' c :=
      fun t' ht' => hM t' ((List.suffix_cons _ _).trans ht')
    exact (ih r (hx.2 r) hrest).mono (fun _ _ h => h) fun _ _ h => .issue r h

/-- What follows a program is followed from every end that the program can reach. -/
theorem Follows.of_ends {x : Program S β} {f : β → Program S γ} {a : β} {t' : Transcript S}
    (h : (x >>= f).Follows M R t) (hx : x.Ends t a t') : (f a).Follows M R t' := by
  induction hx with
  | done a t => exact h
  | issue r _ ih => exact ih (h.2 r)

/-- The beginning of a program is followed for whatever comes after it. -/
theorem Follows.left {x : Program S β} {f : β → Program S γ} (h : (x >>= f).Follows M R t) :
    x.Follows M (fun _ _ => True) t := by
  induction x generalizing t with
  | done a => trivial
  | issue c k ih => exact ⟨h.1, fun r => ih r (h.2 r)⟩

end Program

/-! ## Programs that throw -/

namespace Handler

variable {M : Transcript S → S.Cmd → Prop} {P P' : Transcript S → Prop}
  {Q Q' : β → Transcript S → Prop} {R : γ → Transcript S → Prop} {E E' : ε → Transcript S → Prop}

/-- One command, and what follows it. -/
theorem follows_call_bind {Q : Except ε γ → Transcript S → Prop} {t : Transcript S} {c : S.Cmd}
    {f : S.Ans c → Handler S ε γ} (hM : M t c)
    (hf : ∀ r, (f r).run.Follows M Q (⟨c, r⟩ :: t)) : (call c >>= f).run.Follows M Q t :=
  ⟨hM, hf⟩

/-- A triple with a postcondition for each way to end. -/
def Triple (M : Transcript S → S.Cmd → Prop) (P : Transcript S → Prop) (x : Handler S ε β)
    (Q : β → Transcript S → Prop) (E : ε → Transcript S → Prop) : Prop :=
  Program.Triple M P x.run fun
    | .ok a => Q a
    | .error e => E e

theorem Triple.pure {a : β} (h : ∀ t, P t → Q a t) :
    Triple M P (pure a : Handler S ε β) Q E := h

theorem Triple.throw {e : ε} (h : ∀ t, P t → E e t) :
    Triple M P (throw e : Handler S ε β) Q E := h

theorem Triple.bind {x : Handler S ε β} {f : β → Handler S ε γ} (hx : Triple M P x Q E)
    (hf : ∀ a, Triple M (Q a) (f a) R E) : Triple M P (x >>= f) R E := by
  refine Program.Triple.bind hx fun r => ?_
  cases r with
  | ok a => exact hf a
  | error e => exact Program.Triple.done fun _ h => h

theorem Triple.tryCatch {F : ε → Transcript S → Prop} {x : Handler S ε β} {f : ε → Handler S ε β}
    (hx : Triple M P x Q F) (hf : ∀ e, Triple M (F e) (f e) Q E) :
    Triple M P (tryCatch x f) Q E := by
  refine Program.Triple.bind hx fun r => ?_
  cases r with
  | ok a => exact Program.Triple.done fun _ h => h
  | error e => exact hf e

theorem Triple.conseq {x : Handler S ε β} (hx : Triple M P x Q E) (hP : ∀ t, P' t → P t)
    (hQ : ∀ a t, Q a t → Q' a t) (hE : ∀ e t, E e t → E' e t) : Triple M P' x Q' E' := by
  refine Program.Triple.conseq hx hP fun r t h => ?_
  cases r with
  | ok a => exact hQ a t h
  | error e => exact hE e t h

theorem Triple.map {x : Handler S ε β} (g : β → γ) (hx : Triple M P x (fun a => R (g a)) E) :
    Triple M P (g <$> x) R E := by
  rw [map_eq_pure_bind]
  exact hx.bind fun a => Triple.pure fun _ h => h

/-- What no command of the program can falsify still holds when it ends. -/
theorem Triple.of_every {C : S.Cmd → Prop} {x : Handler S ε β} (hx : Every C x)
    (hM : ∀ t c, P t → C c → M t c) (hP : ∀ t c r, P t → C c → P (⟨c, r⟩ :: t)) :
    Triple M P x (fun _ => P) fun _ => P := by
  refine Program.Triple.conseq (Program.Triple.of_every hx hM hP) (fun _ h => h) fun r t h => ?_
  cases r <;> exact h

/-- Two conditions to begin with, each with its own to end with. -/
theorem Triple.or {P₁ P₂ : Transcript S → Prop} {Q₁ Q₂ : β → Transcript S → Prop}
    {E₁ E₂ : ε → Transcript S → Prop} {x : Handler S ε β} (h₁ : Triple M P₁ x Q₁ E₁)
    (h₂ : Triple M P₂ x Q₂ E₂) : Triple M (fun t => P₁ t ∨ P₂ t) x (fun a t => Q₁ a t ∨ Q₂ a t)
      fun e t => E₁ e t ∨ E₂ e t := by
  rintro t (ht | ht)
  · refine (h₁ t ht).mono (fun _ _ h => h) fun r t h => ?_
    cases r <;> exact .inl h
  · refine (h₂ t ht).mono (fun _ _ h => h) fun r t h => ?_
    cases r <;> exact .inr h

/-- What no command can undo may be added to all conditions. -/
theorem Triple.frame {N : Transcript S → S.Cmd → Prop} {F : Transcript S → Prop}
    {x : Handler S ε β} (hx : Triple M P x Q E) (hF : ∀ t e, F t → F (e :: t))
    (hM : ∀ t c, M t c → F t → N t c) :
    Triple N (fun t => P t ∧ F t) x (fun a t => Q a t ∧ F t) fun e t => E e t ∧ F t := by
  intro t ht
  refine ((hx t ht.1).frame hF hM ht.2).mono (fun _ _ h => h) fun r t h => ?_
  cases r <;> exact h

/-- On some answers, the program returns `a` with the transcript `t'`. -/
def Ends (x : Handler S ε β) (t : Transcript S) (a : β) (t' : Transcript S) : Prop :=
  x.run.Ends t (.ok a) t'

variable {x : Handler S ε β} {t t' t'' : Transcript S} {a : β}

theorem ends_pure : (pure a : Handler S ε β).Ends t a t := .done _ _

theorem Ends.bind {f : β → Handler S ε γ} {b : γ} (hx : x.Ends t a t') (hf : (f a).Ends t' b t'') :
    (x >>= f).Ends t b t'' :=
  Program.Ends.bind hx hf

theorem Ends.tryCatch {f : ε → Handler S ε β} (hx : x.Ends t a t') :
    (tryCatch x f : Handler S ε β).Ends t a t' :=
  Program.Ends.bind hx (.done _ _)

/-- What follows a program is followed from every end that the program can reach. -/
theorem follows_of_ends {f : β → Handler S ε γ} {Q : Except ε γ → Transcript S → Prop}
    (h : (x >>= f).run.Follows M Q t) (hx : x.Ends t a t') : (f a).run.Follows M Q t' :=
  Program.Follows.of_ends (x := x.run) (f := ExceptT.bindCont f) h hx

/-- The beginning of a program is followed for whatever comes after it. -/
theorem follows_left {f : β → Handler S ε γ} {Q : Except ε γ → Transcript S → Prop}
    (h : (x >>= f).run.Follows M Q t) : x.run.Follows M (fun _ _ => True) t :=
  Program.Follows.left (x := x.run) (f := ExceptT.bindCont f) h

theorem follows_tried {f : ε → Handler S ε β} {Q : Except ε β → Transcript S → Prop}
    (h : (tryCatch x f : Handler S ε β).run.Follows M Q t) :
    x.run.Follows M (fun _ _ => True) t :=
  Program.Follows.left (x := x.run) h

end Handler

/-! ## Every process of a run follows its rule -/

namespace System

variable [DecidableEq Pid] {sys : System S Pid σ ι η Op α}

/-- Every process's program follows the rule of the process and its operation from its start. -/
def Obeys (sys : System S Pid σ ι η Op α) (M : Pid → Op → Transcript S → S.Cmd → Prop)
    (Q : Pid → Op → α → Transcript S → Prop) : Prop :=
  ∀ p op, (sys.code p op).Follows (M p op) (Q p op) []

/-- Every process is where its rule allows it to be, every command was allowed when it was issued,
and only processes have issued commands. -/
structure Conforms (M : Pid → Op → Transcript S → S.Cmd → Prop)
    (Q : Pid → Op → α → Transcript S → Prop) (c : Config S Pid σ Op α) : Prop where
  follows : ∀ p P, c.procs p = some P →
    P.prog.Follows (M p P.op) (Q p P.op) (transcript p c.world.history)
  since : ∀ p P, c.procs p = some P → P.since <:+ c.world.history ∧ transcript p P.since = []
  fresh : ∀ p, c.procs p = none → transcript p c.world.history = []
  ordered : ∀ e h, e :: h <:+ c.world.history →
    ∃ P, c.procs e.pid = some P ∧ M e.pid P.op (transcript e.pid h) e.cmd

variable {M : Pid → Op → Transcript S → S.Cmd → Prop} {Q : Pid → Op → α → Transcript S → Prop}
  {c d : Config S Pid σ Op α} {a : Action S Pid η Op} {ls : List (Label Pid ι η Op)}

theorem conforms_init (s : σ) : Conforms M Q (Config.init s : Config S Pid σ Op α) :=
  ⟨fun _ _ hp => (nomatch hp), fun _ _ hp => (nomatch hp), fun _ _ => rfl,
    fun _ _ h => absurd (List.suffix_nil.mp h) (List.cons_ne_nil _ _)⟩

theorem Conforms.start {p : Pid} {op : Op} (hs : sys.Obeys M Q) (h : Conforms M Q c)
    (hp : c.procs p = none) : Conforms M Q ⟨c.world,
      Function.update c.procs p (some ⟨op, c.world.history, sys.code p op⟩)⟩ := by
  have hcases : ∀ q P, Function.update c.procs p
      (some ⟨op, c.world.history, sys.code p op⟩) q = some P →
        q = p ∧ P = ⟨op, c.world.history, sys.code p op⟩ ∨ c.procs q = some P := by
    intro q P hq
    by_cases hqp : q = p
    · subst hqp
      exact .inl ⟨rfl, (Option.some.inj ((Function.update_self q _ _).symm.trans hq)).symm⟩
    · exact .inr (Function.update_of_ne hqp _ c.procs ▸ hq)
  refine ⟨fun q P hq => ?_, fun q P hq => ?_, fun q hq => ?_, fun e hist he => ?_⟩
  · rcases hcases q P hq with ⟨rfl, rfl⟩ | hq
    · simpa only [h.fresh q hp] using hs q op
    · exact h.follows q P hq
  · rcases hcases q P hq with ⟨rfl, rfl⟩ | hq
    · exact ⟨List.suffix_rfl, h.fresh q hp⟩
    · exact h.since q P hq
  · by_cases hqp : q = p
    · subst hqp
      simp at hq
    · exact h.fresh q (Function.update_of_ne hqp _ c.procs ▸ hq)
  · obtain ⟨P, hP, hM⟩ := h.ordered e hist he
    have hne : e.pid ≠ p := fun heq => by rw [heq, hp] at hP; cases hP
    exact ⟨P, (Function.update_of_ne hne _ c.procs).trans hP, hM⟩

theorem Conforms.command {p : Pid} {P : Proc S Pid Op α} {cmd : S.Cmd}
    {k : S.Ans cmd → Program S α} (h : Conforms M Q c) (hp : c.procs p = some P)
    (hk : P.prog = .issue cmd k) (r : S.Ans cmd) (s : σ) :
    Conforms M Q ⟨c.world.after ⟨p, cmd, r⟩ s,
      Function.update c.procs p (some { P with prog := k r })⟩ := by
  refine ⟨fun q P' hq => ?_, fun q P' hq => ?_, fun q hq => ?_, fun e hist he => ?_⟩
  · by_cases hqp : q = p
    · subst hqp
      obtain rfl := Option.some.inj ((Function.update_self q _ c.procs).symm.trans hq)
      have hfollows := h.follows q P hp
      rw [hk] at hfollows
      simpa only [World.after_history, transcript_cons_self] using hfollows.2 r
    · rw [World.after_history, transcript_cons_of_ne (Ne.symm hqp)]
      exact h.follows q P' (Function.update_of_ne hqp _ c.procs ▸ hq)
  · by_cases hqp : q = p
    · subst hqp
      obtain rfl := Option.some.inj ((Function.update_self q _ c.procs).symm.trans hq)
      exact ⟨(h.since q P hp).1.trans (List.suffix_cons _ _), (h.since q P hp).2⟩
    · obtain ⟨hsuf, hnil⟩ := h.since q P' (Function.update_of_ne hqp _ c.procs ▸ hq)
      exact ⟨hsuf.trans (List.suffix_cons _ _), hnil⟩
  · have hqp : q ≠ p := fun he => by subst he; simp at hq
    rw [World.after_history, transcript_cons_of_ne (Ne.symm hqp)]
    exact h.fresh q (Function.update_of_ne hqp _ c.procs ▸ hq)
  · have hops : ∀ q Pq, c.procs q = some Pq → ∃ P', Function.update c.procs p
        (some { P with prog := k r }) q = some P' ∧ P'.op = Pq.op := by
      intro q Pq hq
      by_cases hqp : q = p
      · subst hqp
        obtain rfl := Option.some.inj (hp.symm.trans hq)
        exact ⟨_, Function.update_self q _ c.procs, rfl⟩
      · exact ⟨Pq, (Function.update_of_ne hqp _ c.procs).trans hq, rfl⟩
    rcases List.suffix_cons_iff.mp he with heq | hsuf
    · cases heq
      obtain ⟨P', hP', hop⟩ := hops p P hp
      have hfollows := h.follows p P hp
      rw [hk] at hfollows
      exact ⟨P', hP', hop ▸ hfollows.1⟩
    · obtain ⟨Pq, hPq, hM⟩ := h.ordered e hist hsuf
      obtain ⟨P', hP', hop⟩ := hops e.pid Pq hPq
      exact ⟨P', hP', hop ▸ hM⟩

theorem Conforms.step (hs : sys.Obeys M Q) (h : Conforms M Q c) (hstep : sys.Steps c a d) :
    Conforms M Q d := by
  cases hstep with
  | start hp => exact h.start hs hp
  | command hp hk hx => exact h.command hp hk _ _
  | drift hx => exact ⟨h.follows, h.since, h.fresh, h.ordered⟩

theorem conforms_run (hs : sys.Obeys M Q) {s : σ} (hrun : sys.run (.init s) ls = some c) :
    Conforms M Q c :=
  run_induction (fun _ _ _ hc (_ : True) hst => hc.step hs hst) (conforms_init s) hrun
    (along_of_forall (fun _ _ => trivial) _ _)

/-- A command is issued only if the rule of the process allows it. -/
theorem Conforms.allowed (h : Conforms M Q c) {p : Pid} {P : Proc S Pid Op α} {cmd : S.Cmd}
    {k : S.Ans cmd → Program S α} (hp : c.procs p = some P) (hk : P.prog = .issue cmd k) :
    M p P.op (transcript p c.world.history) cmd := by
  have hfollows := h.follows p P hp
  rw [hk] at hfollows
  exact hfollows.1

/-- Every event of the history was allowed when its command was issued. -/
theorem Conforms.exists_of_mem (h : Conforms M Q c) {e : Event S Pid} (he : e ∈ c.world.history) :
    ∃ P hist, c.procs e.pid = some P ∧ e :: hist <:+ c.world.history ∧
      M e.pid P.op (transcript e.pid hist) e.cmd := by
  obtain ⟨later, hist, heq⟩ := List.append_of_mem he
  have hsuf : e :: hist <:+ c.world.history := ⟨later, heq.symm⟩
  obtain ⟨P, hP, hM⟩ := h.ordered e hist hsuf
  exact ⟨P, hist, hP, hsuf, hM⟩

/-- What every allowed command keeps holds of all that a process has done. -/
theorem Conforms.transcript_induction {I : Transcript S → Prop} (hnil : I [])
    (hcons : ∀ p op t cmd r, M p op t cmd → I t → I (⟨cmd, r⟩ :: t)) (h : Conforms M Q c)
    (p : Pid) : I (transcript p c.world.history) := by
  have hall : ∀ hist, hist <:+ c.world.history → I (transcript p hist) := by
    intro hist
    induction hist with
    | nil => exact fun _ => hnil
    | cons e hist ih =>
      intro hsuf
      obtain ⟨q, cmd, r⟩ := e
      have hrest := ih ((List.suffix_cons _ _).trans hsuf)
      by_cases hq : q = p
      · subst hq
        obtain ⟨P, -, hM⟩ := h.ordered _ hist hsuf
        rw [transcript_cons_self]
        exact hcons q P.op _ cmd r hM hrest
      · rwa [transcript_cons_of_ne hq]
  exact hall _ List.suffix_rfl

omit [DecidableEq Pid] in
/-- Of two events of a history one has come first. -/
theorem cases_of_suffix {H h h' : List (Event S Pid)} {e e' : Event S Pid} (he : e :: h <:+ H)
    (he' : e' :: h' <:+ H) : e' ∈ h ∨ e = e' ∨ e ∈ h' := by
  rcases List.suffix_or_suffix_of_suffix he he' with hle | hle
  · rcases List.suffix_cons_iff.mp hle with heq | hle
    · exact .inr (.inl (List.cons.inj heq).1)
    · exact .inr (.inr (hle.mem List.mem_cons_self))
  · rcases List.suffix_cons_iff.mp hle with heq | hle
    · exact .inr (.inl (List.cons.inj heq).1.symm)
    · exact .inl (hle.mem List.mem_cons_self)

/-- What a process does comes after its start. -/
theorem Conforms.since_suffix (h : Conforms M Q c) {e : Event S Pid} {hist : List (Event S Pid)}
    {P : Proc S Pid Op α} (hp : c.procs e.pid = some P) (he : e :: hist <:+ c.world.history) :
    P.since <:+ hist := by
  obtain ⟨hsince, hnil⟩ := h.since e.pid P hp
  have hnot : e ∉ P.since := fun hmem => transcript_eq_nil.mp hnil e hmem rfl
  rcases List.suffix_or_suffix_of_suffix he hsince with hle | hle
  · exact absurd (hle.mem List.mem_cons_self) hnot
  · rcases List.suffix_cons_iff.mp hle with heq | hle
    · exact absurd (heq ▸ List.mem_cons_self) hnot
    · exact hle

/-- A process that has returned is in its postcondition. -/
theorem Conforms.result (h : Conforms M Q c) {p : Pid} {P : Proc S Pid Op α} {r : α}
    (hp : c.procs p = some P) (hr : P.prog = .done r) :
    Q p P.op r (transcript p c.world.history) := by
  have hfollows := h.follows p P hp
  rwa [hr] at hfollows

/-- The rules hold along with any invariant that is proved from them step by step. -/
theorem invariant_run_through {I : Config S Pid σ Op α → Prop}
    {A : Config S Pid σ Op α → Action S Pid η Op → Config S Pid σ Op α → Prop}
    (hs : sys.Obeys M Q) (hstep : ∀ c a d, Conforms M Q c → I c → A c a d → sys.Steps c a d → I d)
    (hc : Conforms M Q c) (hi : I c) (hrun : sys.run c ls = some d)
    (hal : sys.Through A c ls) : I d := by
  have h : Conforms M Q d ∧ I d :=
    run_induction_through (fun c a d (hI : Conforms M Q c ∧ I c) ha hst =>
      ⟨hI.1.step hs hst, hstep c a d hI.1 hI.2 ha hst⟩) ⟨hc, hi⟩ hrun hal
  exact h.2

theorem invariant_run {I : Config S Pid σ Op α → Prop}
    {A : Config S Pid σ Op α → Action S Pid η Op → Prop} (hs : sys.Obeys M Q)
    (hstep : ∀ c a d, Conforms M Q c → I c → A c a → sys.Steps c a d → I d)
    (hc : Conforms M Q c) (hi : I c) (hrun : sys.run c ls = some d)
    (hal : sys.Along A c ls) : I d :=
  invariant_run_through hs hstep hc hi hrun hal.through

/-- A condition on the steps of a run that follows from another one where the invariant holds. -/
theorem along_of_invariant {I : Config S Pid σ Op α → Prop}
    {A B : Config S Pid σ Op α → Action S Pid η Op → Prop} (hs : sys.Obeys M Q)
    (hstep : ∀ c a d, Conforms M Q c → I c → A c a → sys.Steps c a d → I d ∧ B c a)
    (hc : Conforms M Q c) (hi : I c) (hal : sys.Along A c ls) : sys.Along B c ls := by
  induction ls generalizing c with
  | nil => trivial
  | cons l ls ih =>
    intro a d hnext
    obtain ⟨ha, hrest⟩ := hal a d hnext
    have hsteps := steps_of_next hnext
    obtain ⟨hid, hb⟩ := hstep c a d hc hi ha hsteps
    exact ⟨hb, ih (hc.step hs hsteps) hid hrest⟩

end System

end Concurrent
