import CloudMesh.Gateway.Faults

/-!
# What is recorded of a provider call

`callProviderResilientWithStats` writes a sample for the routing scores when the call is over. Which
sample, if any, it decides by the class of the error that the retry loop has ended with, and not by
whether the provider has been called. The circuit's answers and the outcomes of the call are
arbitrary here; every other command succeeds.

## Main definitions

- `Sampled` — one sample if the provider has been called, and none if not
- `Muted` — the provider has been called, and the last attempt has ended with an error that counts
  as none
- `sampled_iff` — a call is recorded exactly if it is not muted
-/

namespace CloudMesh.Gateway

open Concurrent CircuitBreaker

/-- The sample that the command writes: the provider and the success flag. -/
def Cmd.sample : Cmd → Option (String × Bool)
  | .recordProviderOutcome provider _ success => some (provider, success)
  | _ => none

/-- The samples that have been written, the latest first. -/
def samples (t : Transcript sig) : List (String × Bool) := t.filterMap fun e => e.1.sample

/-- Only the call itself has thrown. -/
def Faultless (call : Cmd) (t : Transcript sig) : Prop :=
  ∀ e ∈ t, failed e = true → e.1 = call

/-- `fn` has been invoked. -/
def Invoked (call : Cmd) (t : Transcript sig) : Prop := ∃ e ∈ t, e.1 = call

/-- Some invocation has resolved. -/
def HasResolved (call : Cmd) (t : Transcript sig) : Prop := ∃ v, ⟨call, .ok v⟩ ∈ t

/-- One sample if `fn` has been invoked, which tells whether an invocation has resolved, and none
otherwise. -/
structure Sampled (name : String) (call : Cmd) (t : Transcript sig) : Prop where
  invoked : Invoked call t →
    ∃ success, samples t = [(name, success)] ∧ (success = true ↔ HasResolved call t)
  otherwise : ¬Invoked call t → samples t = []

/-- The breaker has turned an attempt away. -/
def rejects : Exchange sig → Bool
  | ⟨.evalAttempt _ _ _, .ok (allowed, _)⟩ => !allowed
  | _ => false

/-- An attempt has ended: it was turned away, or `fn` has resolved or thrown. -/
def endsAttempt (call : Cmd) (e : Exchange sig) : Bool := rejects e || decide (e.1 = call)

/-- The two classes of errors that are taken for a rejection. -/
def passesForRejection (err : Thrown) : Bool := isCircuitOpen err || isServiceUnavailable err

/-- What ends an attempt without a sample. -/
def mutes : Exchange sig → Bool
  | ⟨.evalAttempt _ _ _, .ok (allowed, _)⟩ => !allowed
  | ⟨_, .ok _⟩ => false
  | ⟨_, .error err⟩ => passesForRejection err

/-- `fn` has been invoked, but the last attempt was turned away, or `fn` has thrown one of the two
classes in it. -/
def Muted (call : Cmd) (t : Transcript sig) : Prop :=
  Invoked call t ∧ ∃ e, t.find? (endsAttempt call) = some e ∧ mutes e = true

section Calls

variable {call : Cmd} {t : Transcript sig} {e : Exchange sig}

theorem samples_cons : samples (e :: t) = e.1.sample.toList ++ samples t := by
  unfold samples
  rw [List.filterMap_cons]
  cases e.1.sample <;> rfl

theorem samples_of_quiet (hs : e.1.sample = none) : samples (e :: t) = samples t := by
  rw [samples_cons, hs]
  rfl

theorem Faultless.of_cons (h : Faultless call (e :: t)) : Faultless call t :=
  fun e he => h e (List.mem_cons_of_mem _ he)

theorem mutes_of_rejects (h : rejects e = true) : mutes e = true := by
  obtain ⟨c, r⟩ := e
  cases c <;> cases r <;> first | exact h | cases h

theorem mutes_error (c : Cmd) (err : Thrown) :
    mutes ⟨c, .error err⟩ = passesForRejection err := by
  cases c <;> rfl

/-! ### What a run has come to -/

/-- Nothing is recorded and nothing has resolved. -/
structure Open (call : Cmd) (t : Transcript sig) : Prop where
  unsampled : samples t = []
  unresolved : ¬HasResolved call t

/-- The last attempt has ended with the error. -/
structure EndedBy (call : Cmd) (passes : Bool) (t : Transcript sig) : Prop extends Open call t where
  last : ∃ e, t.find? (endsAttempt call) = some e ∧ mutes e = passes ∧
    (e.1 = call ∨ rejects e = true)

/-- The last attempt has resolved. -/
structure EndedWell (call : Cmd) (t : Transcript sig) : Prop where
  unsampled : samples t = []
  resolved : HasResolved call t
  last : ∃ e, t.find? (endsAttempt call) = some e ∧ mutes e = false

/-- A command of the layers that neither records nor ends an attempt. -/
structure Quiet (call : Cmd) (e : Exchange sig) : Prop where
  sample : e.1.sample = none
  ends : endsAttempt call e = false

theorem ne_of_endsAttempt (he : endsAttempt call e = false) : e.1 ≠ call := by
  intro heq
  simp [endsAttempt, heq] at he

theorem invoked_cons (he : endsAttempt call e = false) :
    Invoked call (e :: t) ↔ Invoked call t := by
  simp [Invoked, ne_of_endsAttempt he]

theorem hasResolved_cons (he : endsAttempt call e = false) :
    HasResolved call (e :: t) ↔ HasResolved call t := by
  have hne : ∀ v, (⟨call, .ok v⟩ : Exchange sig) ≠ e :=
    fun v heq => ne_of_endsAttempt he (heq ▸ rfl)
  simp [HasResolved, hne]

theorem find?_cons (he : endsAttempt call e = false) :
    (e :: t).find? (endsAttempt call) = t.find? (endsAttempt call) := by
  rw [List.find?_cons, he]

theorem find?_cons_self (he : endsAttempt call e = true) :
    (e :: t).find? (endsAttempt call) = some e := by
  rw [List.find?_cons, he]

theorem Open.cons (h : Open call t) (he : Quiet call e) : Open call (e :: t) where
  unsampled := (samples_of_quiet he.sample).trans h.unsampled
  unresolved hr := h.unresolved ((hasResolved_cons he.ends).mp hr)

theorem EndedBy.cons {passes : Bool} (h : EndedBy call passes t) (he : Quiet call e) :
    EndedBy call passes (e :: t) := by
  obtain ⟨x, hfind, hx⟩ := h.last
  exact ⟨h.toOpen.cons he, x, (find?_cons he.ends).trans hfind, hx⟩

theorem EndedWell.cons (h : EndedWell call t) (he : Quiet call e) : EndedWell call (e :: t) := by
  obtain ⟨x, hfind, hx⟩ := h.last
  exact ⟨(samples_of_quiet he.sample).trans h.unsampled, (hasResolved_cons he.ends).mpr h.resolved,
    x, (find?_cons he.ends).trans hfind, hx⟩

/-! ### What the end is worth -/

/-- A call that has resolved is recorded as a success. -/
theorem EndedWell.sampled {name : String} (h : EndedWell call t) (he : endsAttempt call e = false)
    (hs : e.1.sample = some (name, true)) :
    Sampled name call (e :: t) ↔ ¬Muted call (e :: t) := by
  have hres : HasResolved call (e :: t) := (hasResolved_cons he).mpr h.resolved
  have hsamples : samples (e :: t) = [(name, true)] := by
    rw [samples_cons, hs, h.unsampled]
    rfl
  refine iff_of_true ⟨fun _ => ⟨true, hsamples, iff_of_true rfl hres⟩, fun hnot => ?_⟩ ?_
  · obtain ⟨v, hv⟩ := hres
    exact absurd ⟨_, hv, rfl⟩ hnot
  · rintro ⟨-, x, hx, hmutes⟩
    obtain ⟨y, hy, hquiet⟩ := h.last
    rw [find?_cons he, hy] at hx
    obtain rfl := Option.some.inj hx
    exact Bool.false_ne_true (hquiet.symm.trans hmutes)

/-- A failure that is no rejection is recorded as one. -/
theorem EndedBy.sampled {name : String} (h : EndedBy call false t)
    (he : endsAttempt call e = false) (hs : e.1.sample = some (name, false)) :
    Sampled name call (e :: t) ↔ ¬Muted call (e :: t) := by
  obtain ⟨y, hy, hquiet, hwhich⟩ := h.last
  have hcall : y.1 = call := by
    refine hwhich.resolve_right fun hrej => ?_
    rw [mutes_of_rejects hrej] at hquiet
    cases hquiet
  have hsamples : samples (e :: t) = [(name, false)] := by
    rw [samples_cons, hs, h.unsampled]
    rfl
  have hunresolved : ¬HasResolved call (e :: t) :=
    fun hr => h.unresolved ((hasResolved_cons he).mp hr)
  refine iff_of_true ⟨fun _ => ⟨false, hsamples, iff_of_false Bool.false_ne_true hunresolved⟩,
    fun hnot => ?_⟩ ?_
  · exact absurd ((invoked_cons he).mpr ⟨y, List.mem_of_find?_eq_some hy, hcall⟩) hnot
  · rintro ⟨-, x, hx, hmutes⟩
    rw [find?_cons he, hy] at hx
    obtain rfl := Option.some.inj hx
    exact Bool.false_ne_true (hquiet.symm.trans hmutes)

/-- Nothing is recorded of what passes for a rejection. -/
theorem EndedBy.unsampled_iff {name : String} (h : EndedBy call true t) :
    Sampled name call t ↔ ¬Muted call t := by
  obtain ⟨y, hy, hmutes, -⟩ := h.last
  constructor
  · rintro hr ⟨hinv, -⟩
    obtain ⟨success, hone, -⟩ := hr.invoked hinv
    rw [h.unsampled] at hone
    cases hone
  · intro hnot
    exact ⟨fun hinv => absurd ⟨hinv, y, hy, hmutes⟩ hnot, fun _ => h.unsampled⟩

end Calls

/-! ## The layers around the call -/

section Layers

variable {call : Cmd}

/-- `P`, or a command other than the call has thrown. -/
def Barring (call : Cmd) (P : Transcript sig → Prop) (t : Transcript sig) : Prop :=
  P t ∨ ¬Faultless call t

theorem not_faultless_cons {t : Transcript sig} {e : Exchange sig} (h : ¬Faultless call t) :
    ¬Faultless call (e :: t) :=
  fun hall => h hall.of_cons

theorem barring_triple {α : Type} {x : Prog α} {P : Transcript sig → Prop}
    {Q : α → Transcript sig → Prop} {E : Thrown → Transcript sig → Prop}
    (hx : Handler.Triple Unruled P x (fun a => Barring call (Q a))
      fun err => Barring call (E err)) :
    Handler.Triple Unruled (Barring call P) x (fun a => Barring call (Q a))
      fun err => Barring call (E err) := by
  refine (hx.or (unruled_of_stable (fun _ _ => not_faultless_cons) x)).conseq (fun _ h => h)
    (fun _ _ h => ?_) fun _ _ h => ?_
  · exact h.elim id .inr
  · exact h.elim id .inr

/-- A command that may not throw. -/
theorem guarded_triple {c : Cmd} {P : Transcript sig → Prop} {Q : Res c → Transcript sig → Prop}
    {E : Thrown → Transcript sig → Prop} (hne : c ≠ call)
    (hok : ∀ t r, P t → Q r (⟨c, .ok r⟩ :: t)) :
    Handler.Triple Unruled (Barring call P) (command c) (fun r => Barring call (Q r))
      fun err => Barring call (E err) := by
  refine barring_triple (unruled_command (fun t r ht => .inl (hok t r ht)) fun t err _ => .inr ?_)
  intro hall
  exact hne (hall _ List.mem_cons_self rfl)

variable (hcall : call.isResilience = false)

include hcall

theorem quiet_of_isResilience {c : Cmd} (hc : c.isResilience = true) (hs : c.sample = none)
    {r : sig.Ans c} (hrej : rejects ⟨c, r⟩ = false) : Quiet call ⟨c, r⟩ := by
  have hne : c ≠ call := fun h => Bool.false_ne_true (hcall.symm.trans (h ▸ hc))
  exact ⟨hs, by simp [endsAttempt, hrej, hne]⟩

/-- A quiet command leaves what the run has come to. -/
theorem quiet_triple {c : Cmd} {P : Transcript sig → Prop} {E : Thrown → Transcript sig → Prop}
    (hc : c.isResilience = true) (hs : c.sample = none) (hrej : ∀ r, rejects ⟨c, r⟩ = false)
    (hP : ∀ t e, P t → Quiet call e → P (e :: t)) :
    Handler.Triple Unruled (Barring call P) (command c) (fun _ => Barring call P)
      fun err => Barring call (E err) :=
  guarded_triple (fun h => Bool.false_ne_true (hcall.symm.trans (h ▸ hc)))
    fun t _ ht => hP t _ ht (quiet_of_isResilience hcall hc hs (hrej _))

theorem mutes_ok (v : Res call) : mutes ⟨call, .ok v⟩ = false := by
  cases call <;> first | rfl | cases hcall

theorem open_call {t : Transcript sig} {r : sig.Ans call} (h : Open call t) :
    samples (⟨call, r⟩ :: t) = [] := by
  have hs : call.sample = none := by
    cases call <;> first | rfl | cases hcall
  exact (samples_of_quiet hs).trans h.unsampled

/-- The call itself, with its two ends. -/
theorem call_triple : Handler.Triple Unruled (Barring call (Open call)) (command call)
    (fun _ => Barring call (EndedWell call))
      fun err => Barring call (EndedBy call (passesForRejection err)) := by
  have hends : ∀ r, endsAttempt call ⟨call, r⟩ = true := fun r => by simp [endsAttempt]
  refine barring_triple (unruled_command (fun t v ht => .inl ?_) fun t err ht => .inl ?_)
  · exact ⟨open_call hcall ht, ⟨v, List.mem_cons_self⟩, _, find?_cons_self (hends _),
      mutes_ok hcall v⟩
  · refine ⟨⟨open_call hcall ht, ?_⟩, _, find?_cons_self (hends _), mutes_error call err, .inl rfl⟩
    rintro ⟨v, hv⟩
    rcases List.mem_cons.mp hv with heq | hv
    · cases heq
    · exact ht.unresolved ⟨v, hv⟩

variable {env : Env} (name : String)

/-- One attempt: turned away, resolved or thrown. -/
theorem callThroughBreaker_attempt : Handler.Triple Unruled (Barring call (Open call))
    (callThroughBreaker env name (command call)) (fun _ => Barring call (EndedWell call))
      fun err => Barring call (EndedBy call (passesForRejection err)) := by
  refine Handler.Triple.bind (Q := fun _ => Barring call (Open call))
    (quiet_triple hcall rfl rfl (fun _ => rfl) fun _ _ => Open.cons) fun now => ?_
  have hne : Cmd.evalAttempt name now env.circuitConfig ≠ call := by
    rintro rfl
    cases hcall
  refine Handler.Triple.bind (Q := fun answer => Barring call fun t =>
      if answer.1 then Open call t else EndedBy call true t)
    (guarded_triple hne fun t answer ht => ?_) fun answer => ?_
  · obtain ⟨allowed, state⟩ := answer
    cases allowed with
    | true => exact ht.cons (quiet_of_isResilience hcall rfl rfl rfl)
    | false =>
      refine ⟨⟨(samples_of_quiet rfl).trans ht.unsampled, ?_⟩, _, find?_cons_self rfl, rfl,
        .inr rfl⟩
      rintro ⟨v, hv⟩
      rcases List.mem_cons.mp hv with heq | hv
      · cases heq
        cases hcall
      · exact ht.unresolved ⟨v, hv⟩
  · obtain ⟨allowed, state⟩ := answer
    cases allowed with
    | false => exact .throw fun _ h => h
    | true =>
      have hreport : ∀ (success : Bool) (P : Transcript sig → Prop)
          (E : Thrown → Transcript sig → Prop), (∀ t e, P t → Quiet call e → P (e :: t)) →
          Handler.Triple Unruled (Barring call P)
            (command (.evalReport name now success env.circuitConfig)) (fun _ => Barring call P)
            fun err => Barring call (E err) :=
        fun success P E hP => quiet_triple hcall rfl rfl (fun _ => rfl) hP
      refine (Handler.Triple.bind (call_triple hcall) fun v => ?_).tryCatch fun err => ?_
      · exact (hreport true _ _ fun _ _ => EndedWell.cons).bind fun _ => .pure fun _ h => h
      · refine Handler.Triple.bind
          (Q := fun _ => Barring call (EndedBy call (passesForRejection err)))
          (hreport false _ _ fun _ _ => EndedBy.cons) fun _ => ?_
        exact .throw fun _ h => h

theorem retryFrom_attempts {fn : Prog (Res call)} (shouldRetry : Thrown → Bool)
    (hfn : Handler.Triple Unruled (Barring call (Open call)) fn
      (fun _ => Barring call (EndedWell call))
      fun err => Barring call (EndedBy call (passesForRejection err)))
    (attempt attemptsLeft : ℕ) : Handler.Triple Unruled (Barring call (Open call))
      (retryFrom env fn shouldRetry attempt attemptsLeft) (fun _ => Barring call (EndedWell call))
      fun err => Barring call (EndedBy call (passesForRejection err)) := by
  induction attemptsLeft generalizing attempt with
  | zero => exact hfn
  | succ attemptsLeft ih =>
    refine hfn.tryCatch fun err => ?_
    split
    · refine Handler.Triple.conseq (P := Barring call (Open call)) ?_
        (fun _ h => h.imp_left EndedBy.toOpen) (fun _ _ h => h) fun _ _ h => h
      have hquiet : ∀ c : Cmd, c.isResilience = true → c.sample = none →
          (∀ r, rejects ⟨c, r⟩ = false) → Handler.Triple Unruled (Barring call (Open call))
            (command c) (fun _ => Barring call (Open call))
            fun err => Barring call (EndedBy call (passesForRejection err)) :=
        fun c hc hs hrej => quiet_triple hcall hc hs hrej fun _ _ => Open.cons
      exact (hquiet .random rfl rfl fun _ => rfl).bind fun _ =>
        (hquiet (.sleep _) rfl rfl fun _ => rfl).bind fun _ => ih _
    · exact .throw fun _ h => h

theorem callProviderResilient_attempts : Handler.Triple Unruled (Barring call (Open call))
    (callProviderResilient env name (command call)) (fun _ => Barring call (EndedWell call))
      fun err => Barring call (EndedBy call (isServiceUnavailable err)) := by
  refine Handler.Triple.tryCatch
    (retryFrom_attempts hcall _ (callThroughBreaker_attempt hcall name) 1 _) fun err => ?_
  cases hopen : isCircuitOpen err with
  | true =>
    have hpasses : passesForRejection err = true := by simp [passesForRejection, hopen]
    rw [hpasses]
    exact .throw fun _ h => h
  | false =>
    have hpasses : passesForRejection err = isServiceUnavailable err := by
      simp [passesForRejection, hopen]
    rw [hpasses]
    exact .throw fun _ h => h

/-- What a run has recorded, unless a command of the layers has thrown. -/
theorem callProviderResilientWithStats_records : Handler.Triple Unruled
    (Barring call (Open call)) (callProviderResilientWithStats env name (command call))
    (fun _ => Barring call fun t => Sampled name call t ↔ ¬Muted call t)
      fun _ => Barring call fun t => Sampled name call t ↔ ¬Muted call t := by
  refine Handler.Triple.bind (Q := fun _ => Barring call (Open call))
    (quiet_triple hcall rfl rfl (fun _ => rfl) fun _ _ => Open.cons) fun start => ?_
  have hne : ∀ latencyMs success, Cmd.recordProviderOutcome name latencyMs success ≠ call := by
    rintro latencyMs success rfl
    cases hcall
  have hends : ∀ latencyMs success r,
      endsAttempt call ⟨.recordProviderOutcome name latencyMs success, r⟩ = false := by
    intro latencyMs success r
    simp [endsAttempt, hne, rejects]
  refine Handler.Triple.tryCatch (F := fun err => Barring call (EndedBy call
    (isServiceUnavailable err))) ?_ fun err => ?_
  · refine (callProviderResilient_attempts hcall name).bind fun v => ?_
    refine Handler.Triple.bind (Q := fun _ => Barring call (EndedWell call))
      (quiet_triple hcall rfl rfl (fun _ => rfl) fun _ _ => EndedWell.cons) fun now => ?_
    exact (guarded_triple (hne _ _) fun t _ ht => ht.sampled (hends _ _ _) rfl).bind
      fun _ => .pure fun _ h => h
  · cases hpasses : isServiceUnavailable err with
    | true => exact .throw fun _ h => h.imp_left EndedBy.unsampled_iff
    | false =>
      refine Handler.Triple.bind (Q := fun _ => Barring call (EndedBy call false))
        (quiet_triple hcall rfl rfl (fun _ => rfl) fun _ _ => EndedBy.cons) fun now => ?_
      exact (guarded_triple (hne _ _) fun t _ ht => ht.sampled (hends _ _ _) rfl).bind
        fun _ => .throw fun _ h => h

end Layers

/-- One sample is recorded of a call that has been made, and it tells how the call has ended, if and
only if the last attempt was neither turned away nor ended by an error that passes for that. -/
theorem sampled_iff {env : Env} {name : String} {call : Cmd} (hcall : call.isResilience = false)
    {r : Except Thrown (Res call)} {t : Transcript sig}
    (h : (callProviderResilientWithStats env name (command call)).run.Ends [] r t)
    (hfaultless : Faultless call t) : Sampled name call t ↔ ¬Muted call t := by
  have hopen : Open call [] := ⟨rfl, by simp [HasResolved]⟩
  have hend : Barring call (fun t => Sampled name call t ↔ ¬Muted call t) t :=
    unruled_ends (R := fun _ => Barring call fun t => Sampled name call t ↔ ¬Muted call t)
      (callProviderResilientWithStats_records hcall name) (.inl hopen) h
  exact hend.resolve_right (not_not_intro hfaultless)

/-- What the provider throws when it answers with a 500. -/
def internalError : Thrown := .app (providerError "OpenAI request failed" "openai")

/-- The call fails once, and resolves at the second attempt. -/
theorem sampled_iff_secondAttempt : ∃ t : Transcript sig,
    (callProviderResilientWithStats Env.defaults "openai" (command asked)).run.Ends []
      (.ok (greeted "chatcmpl-2")) t ∧
    Faultless asked t ∧ samples t = [("openai", true)] ∧
    (Sampled "openai" asked t ↔ ¬Muted asked t) := by
  obtain ⟨t, hends, hfaultless, hsamples⟩ : ∃ t : Transcript sig,
      (callProviderResilientWithStats Env.defaults "openai" (command asked)).run.Ends []
        (.ok (greeted "chatcmpl-2")) t ∧ Faultless asked t ∧ samples t = [("openai", true)] := by
    refine ⟨_, .issue (.ok (0 : ℤ)) <| .issue (.ok (0 : ℤ)) <| .issue (.ok (true, .closed)) <|
      .issue (.error internalError) <| .issue (.ok .closed) <| .issue (.ok (0 : ℚ)) <|
      .issue (.ok ()) <| .issue (.ok (1000 : ℤ)) <| .issue (.ok (true, .closed)) <|
      .issue (.ok (greeted "chatcmpl-2")) <| .issue (.ok .closed) <| .issue (.ok (1001 : ℤ)) <|
      .issue (.ok ()) <| .done _ _, ?_, ?_⟩
    · simp [Faultless, failed, asked]
    · rfl
  exact ⟨t, hends, hfaultless, hsamples, sampled_iff rfl hends hfaultless⟩

/-- What the exchange does to the circuit's hash, if it is answered by the scripts. -/
def scripted : Exchange sig → CircuitKey → Option CircuitKey
  | ⟨.evalAttempt _ now config, .ok answer⟩, key =>
    if (attemptScript config now now key).1 = answer then
      some (attemptScript config now now key).2
    else none
  | ⟨.evalReport _ now success config, .ok state⟩, key =>
    if (reportScript config now now success key).1 = state then
      some (reportScript config now now success key).2
    else none
  | _, key => some key

/-- The circuit's hash after a run in which no other caller has touched it. -/
def circuitAfter (key : CircuitKey) (t : Transcript sig) : Option CircuitKey :=
  t.foldr (fun e key => key.bind (scripted e)) (some key)

/-- Three calls have failed within the last minute. -/
def shaken : CircuitKey := ⟨⟨none, some 3, some 0, none, none⟩, none⟩

/-- The provider fails twice, which trips the circuit, and the third attempt is turned away: two
calls have been made, and nothing is recorded. -/
theorem sampled_fails : ∃ t : Transcript sig,
    (callProviderResilientWithStats Env.defaults "openai" (command asked)).run.Ends []
      (.error (.app (serviceUnavailableError
        ("openai" ++ " is temporarily unavailable (circuit open)")
        ((Env.defaults.circuitOpenDurationMs : ℕ) / 1000)))) t ∧
    Faultless asked t ∧ (circuitAfter shaken t).map CircuitKey.state = some .opened ∧
    samples t = [] ∧ ¬Sampled "openai" asked t := by
  obtain ⟨t, hends, hfaultless, hcircuit, hsamples, hinvoked⟩ : ∃ t : Transcript sig,
      (callProviderResilientWithStats Env.defaults "openai" (command asked)).run.Ends []
        (.error (.app (serviceUnavailableError
          ("openai" ++ " is temporarily unavailable (circuit open)")
          ((Env.defaults.circuitOpenDurationMs : ℕ) / 1000)))) t ∧
      Faultless asked t ∧ (circuitAfter shaken t).map CircuitKey.state = some .opened ∧
      samples t = [] ∧ Invoked asked t := by
    refine ⟨_, .issue (.ok (10 : ℤ)) <| .issue (.ok (10 : ℤ)) <| .issue (.ok (true, .closed)) <|
      .issue (.error internalError) <| .issue (.ok .closed) <| .issue (.ok (0 : ℚ)) <|
      .issue (.ok ()) <| .issue (.ok (1010 : ℤ)) <| .issue (.ok (true, .closed)) <|
      .issue (.error internalError) <| .issue (.ok .opened) <| .issue (.ok (0 : ℚ)) <|
      .issue (.ok ()) <| .issue (.ok (3010 : ℤ)) <| .issue (.ok (false, .opened)) <| .done _ _,
      ?_, ?_, rfl, ?_⟩
    · simp [Faultless, failed, asked]
    · decide
    · simp [Invoked, asked]
  refine ⟨t, hends, hfaultless, hcircuit, hsamples, fun h => ?_⟩
  obtain ⟨success, hone, -⟩ := h.invoked hinvoked
  rw [hsamples] at hone
  cases hone

end CloudMesh.Gateway
