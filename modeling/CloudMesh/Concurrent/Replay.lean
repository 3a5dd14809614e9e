import CloudMesh.Concurrent.Transcript

/-!
# Replaying a program

What a process has been answered determines what it has computed. Replaying a program on the
exchanges of its process, the first one first, gives its result again; a process that runs a
program and goes on with its result can so be told apart from one that has not come so far, and
what it does later can be stated in terms of that result.

## Main definitions

- `Program.replay` — the result of a program on given exchanges
- `Program.follows_bind_replay` — what each part of a program issues, by the result of the first
-/

namespace Concurrent

variable {S : Signature} {α β : Type}

namespace Program

section Replay

variable [DecidableEq S.Cmd]

/-- The result of the program on these exchanges, of which it may leave some; `none` if it is not
the program's exchanges or if they are too few. -/
def replay : Program S α → List (Exchange S) → Option α
  | .done a, _ => some a
  | .issue _ _, [] => none
  | .issue c k, e :: es => if h : e.1 = c then (k (h ▸ e.2)).replay es else none

@[simp] theorem replay_done (a : α) (es : List (Exchange S)) :
    (done a : Program S α).replay es = some a := by
  simp only [replay]

@[simp] theorem replay_issue_cons (c : S.Cmd) (k : S.Ans c → Program S α) (r : S.Ans c)
    (es : List (Exchange S)) : (issue c k).replay (⟨c, r⟩ :: es) = (k r).replay es := by
  simp only [replay, dif_pos]

/-- Whatever comes after the result does not change it. -/
theorem replay_append {x : Program S α} {es : List (Exchange S)} {a : α}
    (h : x.replay es = some a) (later : List (Exchange S)) :
    x.replay (es ++ later) = some a := by
  induction x generalizing es with
  | done b => simpa using h
  | issue c k ih =>
    cases es with
    | nil => cases h
    | cons e es =>
      simp only [replay] at h
      split at h
      · rename_i hc
        obtain ⟨c', r⟩ := e
        subst hc
        rw [List.cons_append, replay_issue_cons]
        exact ih r h
      · cases h

/-- The same for the transcript of a process, which has the latest exchange first. -/
theorem replay_of_suffix {x : Program S α} {t t' : Transcript S} {a : α}
    (h : x.replay t.reverse = some a) (hle : t <:+ t') : x.replay t'.reverse = some a := by
  obtain ⟨later, rfl⟩ := hle
  rw [List.reverse_append]
  exact replay_append h _

/-- A program that is followed from `t` on replays to its result on what it has added. -/
theorem Follows.replay {M : Transcript S → S.Cmd → Prop} {Q : α → Transcript S → Prop}
    {x : Program S α} {t : Transcript S} (hx : x.Follows M Q t) :
    x.Follows M (fun a t' => Q a t' ∧ ∃ es, t' = es ++ t ∧ x.replay es.reverse = some a) t := by
  induction x generalizing t with
  | done a => exact ⟨hx, [], rfl, by simp⟩
  | issue c k ih =>
    refine ⟨hx.1, fun r => (ih r (hx.2 r)).mono (fun _ _ h => h) fun a t' h => ⟨h.1, ?_⟩⟩
    obtain ⟨es, rfl, hes⟩ := h.2
    exact ⟨es ++ [⟨c, r⟩], by simp, by simpa using hes⟩

/-- A command of `x >>= f` is one of `x`, or `x` replays to a result `a` and it is one of `f a`. -/
theorem follows_bind_replay {x : Program S α} {f : α → Program S β} {A : S.Cmd → Prop}
    {B : α → S.Cmd → Prop} (hx : x.Every A) (hf : ∀ a, (f a).Every (B a)) :
    (x >>= f).Follows (fun t c => A c ∨ ∃ a, x.replay t.reverse = some a ∧ B a c)
      (fun _ _ => True) [] := by
  have hfirst : x.Follows (fun t c => A c ∨ ∃ a, x.replay t.reverse = some a ∧ B a c)
      (fun _ _ => True) [] :=
    (Triple.of_every (P := fun _ => True) hx (fun _ _ _ hc => .inl hc) fun _ _ _ _ _ => trivial)
      [] trivial
  refine hfirst.replay.bind fun a t h => ?_
  obtain ⟨-, es, rfl, hes⟩ := h
  rw [List.append_nil]
  have hrest := Triple.of_every (P := fun t => x.replay t.reverse = some a)
    (M := fun t c => A c ∨ ∃ a, x.replay t.reverse = some a ∧ B a c) (hf a)
    (fun _ _ h hc => .inr ⟨a, h, hc⟩) fun _ _ _ h _ => replay_of_suffix h (List.suffix_cons _ _)
  exact (hrest es hes).mono (fun _ _ h => h) fun _ _ _ => trivial

end Replay

end Program

/-- The same for programs that throw: `x` replays to a result that is no error. -/
theorem Handler.follows_bind_replay [DecidableEq S.Cmd] {ε : Type} {x : Handler S ε α}
    {f : α → Handler S ε β} {A : S.Cmd → Prop} {B : α → S.Cmd → Prop} (hx : Every A x)
    (hf : ∀ a, Every (B a) (f a)) :
    (x >>= f).run.Follows
      (fun t c => A c ∨ ∃ a, x.run.replay t.reverse = some (.ok a) ∧ B a c) (fun _ _ => True)
      [] := by
  have hbind := Program.follows_bind_replay (x := x.run) (f := ExceptT.bindCont f) (A := A)
    (B := fun r c => ∃ a, r = .ok a ∧ B a c) hx fun r => ?_
  · refine Program.Follows.mono hbind (fun t c h => h.imp_right ?_) fun _ _ _ => trivial
    rintro ⟨r, hreplay, a, rfl, hc⟩
    exact ⟨a, hreplay, hc⟩
  · cases r with
    | ok a => exact Program.Every.mono (hf a) fun c hc => ⟨a, rfl, hc⟩
    | error err => trivial

end Concurrent
