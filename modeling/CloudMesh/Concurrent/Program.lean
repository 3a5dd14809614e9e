import Mathlib.Logic.Function.Basic

/-!
# Programs that issue commands

A process of a concurrent system is a finite-depth tree of atomic commands: it issues a command,
is given the command's answer and goes on with the continuation for that answer. Nothing is said
here about what a command does; `Concurrent.System` runs many such programs against one shared
state.

## Main definitions

- `Signature` — the commands of a system and the type of each command's answer
- `Program S α` — a program over `S` that returns an `α`; a lawful monad
- `Program.translate` — a program over other commands that does the same
- `Program.Every` — every command that a program can issue satisfies a predicate
- `Program.Issues` — a program can issue a command
- `Handler S ε α` — a program that may throw an `ε`
-/

namespace Concurrent

/-- The commands processes can issue and the type of the answer to each. -/
structure Signature where
  Cmd : Type
  Ans : Cmd → Type

/-- A program returns, or issues a command and continues with its answer. -/
inductive Program (S : Signature) (α : Type) : Type
  | done (a : α) : Program S α
  | issue (c : S.Cmd) (k : S.Ans c → Program S α) : Program S α

namespace Program

variable {S : Signature} {α β γ : Type}

/-- Run the first program and continue with the second at each of its results. -/
def bind : Program S α → (α → Program S β) → Program S β
  | .done a, f => f a
  | .issue c k, f => .issue c fun r => (k r).bind f

instance : Monad (Program S) where
  pure := .done
  bind := bind

/-- Issue one command and return its answer. -/
def call (c : S.Cmd) : Program S (S.Ans c) := .issue c .done

@[simp] theorem pure_eq (a : α) : (pure a : Program S α) = .done a := rfl

@[simp] theorem done_bind (a : α) (f : α → Program S β) : (done a >>= f) = f a := rfl

@[simp] theorem issue_bind (c : S.Cmd) (k : S.Ans c → Program S α) (f : α → Program S β) :
    (issue c k >>= f) = issue c fun r => k r >>= f := rfl

@[simp] theorem call_bind (c : S.Cmd) (f : S.Ans c → Program S β) :
    (call c >>= f) = issue c f := rfl

/-- Continuing with nothing changes nothing. -/
theorem bind_done (x : Program S α) : (x >>= done) = x := by
  induction x with
  | done a => rfl
  | issue c k ih => exact congrArg (issue c) (funext ih)

/-- The grouping of two continuations does not matter. -/
theorem bind_assoc (x : Program S α) (f : α → Program S β) (g : β → Program S γ) :
    (x >>= f >>= g) = (x >>= fun a => f a >>= g) := by
  induction x with
  | done a => rfl
  | issue c k ih => exact congrArg (issue c) (funext ih)

instance : LawfulMonad (Program S) :=
  LawfulMonad.mk' _ bind_done (fun _ _ => rfl) bind_assoc

/-- The program with each of its commands replaced by a program over other commands. -/
def translate {T : Signature} (f : (c : S.Cmd) → Program T (S.Ans c)) : Program S α → Program T α
  | .done a => .done a
  | .issue c k => f c >>= fun r => (k r).translate f

/-- The result of a program that has come to its end. -/
def returned : Program S α → Option α
  | .done a => some a
  | .issue .. => none

/-- Every command that the program can issue, on any answers, satisfies `P`. -/
def Every (P : S.Cmd → Prop) : Program S α → Prop
  | .done _ => True
  | .issue c k => P c ∧ ∀ r, (k r).Every P

@[simp] theorem every_done (P : S.Cmd → Prop) (a : α) : (done a : Program S α).Every P := trivial

@[simp] theorem every_issue {P : S.Cmd → Prop} {c : S.Cmd} {k : S.Ans c → Program S α} :
    (issue c k).Every P ↔ P c ∧ ∀ r, (k r).Every P := Iff.rfl

/-- A sequence issues what its first program issues and what its continuations issue. -/
theorem Every.bind {P : S.Cmd → Prop} {x : Program S α} {f : α → Program S β}
    (hx : x.Every P) (hf : ∀ a, (f a).Every P) : (x >>= f).Every P := by
  induction x with
  | done a => exact hf a
  | issue c k ih => exact ⟨hx.1, fun r => ih r (hx.2 r)⟩

/-- A predicate on the issued commands may be weakened. -/
theorem Every.mono {P Q : S.Cmd → Prop} {x : Program S α} (hx : x.Every P)
    (h : ∀ c, P c → Q c) : x.Every Q := by
  induction x with
  | done a => trivial
  | issue c k ih => exact ⟨h c hx.1, fun r => ih r (hx.2 r)⟩

/-- What every command satisfies, every program's commands satisfy. -/
theorem every_of_forall {P : S.Cmd → Prop} (h : ∀ c, P c) (x : Program S α) : x.Every P := by
  induction x with
  | done a => trivial
  | issue c k ih => exact ⟨h c, ih⟩

/-- Two facts about the commands of one program hold of them together. -/
theorem Every.and {P Q : S.Cmd → Prop} {x : Program S α} (hP : x.Every P) (hQ : x.Every Q) :
    x.Every fun c => P c ∧ Q c := by
  induction x with
  | done a => trivial
  | issue c k ih => exact ⟨⟨hP.1, hQ.1⟩, fun r => ih r (hP.2 r) (hQ.2 r)⟩

/-- On some answers, the program issues the command. -/
inductive Issues (d : S.Cmd) : Program S α → Prop
  | here (k : S.Ans d → Program S α) : Issues d (.issue d k)
  | later {c : S.Cmd} {k : S.Ans c → Program S α} (r : S.Ans c) (h : Issues d (k r)) :
      Issues d (.issue c k)

/-- A command that can be issued satisfies what all issued commands do. -/
theorem Issues.of_every {P : S.Cmd → Prop} {d : S.Cmd} {x : Program S α} (h : x.Issues d)
    (hx : x.Every P) : P d := by
  induction h with
  | here k => exact hx.1
  | later r _ ih => exact ih (hx.2 r)

/-- A program issues only commands that it can issue. -/
theorem every_issues (x : Program S α) : x.Every fun c => x.Issues c := by
  induction x with
  | done a => trivial
  | issue c k ih => exact ⟨.here k, fun r => (ih r).mono fun _ h => .later r h⟩

end Program

/-- A program that may throw. -/
abbrev Handler (S : Signature) (ε α : Type) := ExceptT ε (Program S) α

namespace Handler

variable {S : Signature} {ε α β : Type}

/-- Issue one command and return its answer. -/
def call (c : S.Cmd) : Handler S ε (S.Ans c) := ExceptT.lift (.call c)

/-- Every command that the program can issue, on any answers, satisfies `P`. -/
def Every (P : S.Cmd → Prop) (x : Handler S ε α) : Prop := Program.Every P x.run

variable {P Q : S.Cmd → Prop} {x : Handler S ε α} {f : α → Handler S ε β}

theorem every_pure (a : α) : Every P (pure a : Handler S ε α) := trivial

theorem every_throw (e : ε) : Every P (throw e : Handler S ε α) := trivial

/-- A sequence issues what its first program issues and, unless that throws, what its continuation
issues. -/
theorem Every.bind (hx : Every P x) (hf : ∀ a, Every P (f a)) : Every P (x >>= f) := by
  refine Program.Every.bind hx fun r => ?_
  cases r with
  | ok a => exact hf a
  | error e => trivial

/-- Changing the result of a program changes none of its commands. -/
theorem Every.map (g : α → β) (hx : Every P x) : Every P (g <$> x) := by
  rw [map_eq_pure_bind]
  exact hx.bind fun a => every_pure (g a)

/-- A program with a handler issues its own commands and those of the handler. -/
theorem Every.tryCatch {g : ε → Handler S ε α} (hx : Every P x) (hg : ∀ e, Every P (g e)) :
    Every P (tryCatch x g) := by
  refine Program.Every.bind hx fun r => ?_
  cases r with
  | ok a => trivial
  | error e => exact hg e

/-- A predicate on the issued commands may be weakened. -/
theorem Every.mono (hx : Every P x) (h : ∀ c, P c → Q c) : Every Q x := Program.Every.mono hx h

end Handler

end Concurrent
