import CloudMesh.Gateway.Dedup

/-!
# A Redis that fails around a call that has succeeded

`callProviderResilientWithStats` and `withRequestDedup` write to Redis after their work has
resolved, inside the `try` blocks that are there for the work. The work is one operation whose
answer is its outcome; every command may fail. What a caller of either function can see is proved to
be undisturbed exactly in the runs in which these writes do not fail.

## Main definitions

- `Preserved` — a success is returned, and is neither repeated nor reported as a failure
- `preserved_iff` — when `callProviderResilientWithStats` does so
- `Transparent` — coalescing cannot be seen by the caller, nor a success be taken for a failure
- `transparent_iff` — when `withRequestDedup` is so
-/

namespace CloudMesh.Gateway

open Concurrent CircuitBreaker

/-- The command has thrown. -/
def failed : Exchange sig → Bool
  | ⟨_, .ok _⟩ => false
  | ⟨_, .error _⟩ => true

/-- The exchanges of a program are arbitrary; only what it makes of them counts. -/
abbrev Unruled (_ : Transcript sig) (_ : sig.Cmd) : Prop := True

section Unruled

variable {α : Type} {P : Transcript sig → Prop}

theorem unruled_command {c : Cmd} {Q : Res c → Transcript sig → Prop}
    {E : Thrown → Transcript sig → Prop} (hok : ∀ t r, P t → Q r (⟨c, .ok r⟩ :: t))
    (herr : ∀ t err, P t → E err (⟨c, .error err⟩ :: t)) :
    Handler.Triple Unruled P (command c) Q E :=
  command_triple (fun _ _ => trivial) hok herr

/-- What nothing can undo is left by every program. -/
theorem unruled_of_stable (hP : ∀ t e, P t → P (e :: t)) (x : Prog α) :
    Handler.Triple Unruled P x (fun _ => P) fun _ => P :=
  .of_every (C := fun _ => True) (Program.every_of_forall (fun _ => trivial) _)
    (fun _ _ _ _ => trivial) fun t c r ht _ => hP t ⟨c, r⟩ ht

/-- What holds of a run that has ended, in either way. -/
theorem unruled_ends {x : Prog α} {R : Except Thrown α → Transcript sig → Prop}
    (hx : Handler.Triple Unruled P x (fun a => R (.ok a)) fun err => R (.error err))
    {t t' : Transcript sig} {r : Except Thrown α} (ht : P t) (h : x.run.Ends t r t') : R r t' := by
  have hpost := (hx t ht).ends h
  cases r <;> exact hpost

end Unruled

/-! ## Provider calls -/

def Cmd.tellsSuccess : Cmd → Bool
  | .evalReport _ _ success _ | .recordProviderOutcome _ _ success => success
  | _ => false

def Cmd.tellsFailure : Cmd → Bool
  | .evalReport _ _ success _ | .recordProviderOutcome _ _ success => !success
  | _ => false

/-- `Date.now`, `Math.random` and `setTimeout`. -/
def Cmd.isBuiltin : Cmd → Bool
  | .dateNow | .random | .sleep _ => true
  | _ => false

/-- The language's own functions do not throw. -/
def Builtins (t : Transcript sig) : Prop := ∀ e ∈ t, e.1.isBuiltin = true → failed e = false

/-- Every report of a success and every sample of one has been written. -/
def Told (t : Transcript sig) : Prop := ∀ e ∈ t, e.1.tellsSuccess = true → failed e = false

/-- Once a call has resolved with `v`, it is not made again and no failure is reported or recorded,
and `v` is what is returned. -/
structure Preserved (call : Cmd) (r : Except Thrown (Res call)) (t : Transcript sig) : Prop where
  quiet : t.Pairwise fun later earlier => ∀ v, earlier = ⟨call, .ok v⟩ →
    later.1 ≠ call ∧ later.1.tellsFailure = false
  returned : ∀ v, ⟨call, .ok v⟩ ∈ t → r = .ok v

section Provider

variable {call : Cmd} {t : Transcript sig} {e : Exchange sig}

/-! ### What a run has come to -/

/-- No call has resolved, and no success has been told. -/
def Unresolved (call : Cmd) (t : Transcript sig) : Prop :=
  ∀ e ∈ t, (∀ v, e ≠ ⟨call, .ok v⟩) ∧ e.1.tellsSuccess = false

/-- A call has resolved with `v`, and nothing has failed since. -/
def Resolved (call : Cmd) (v : Res call) (t : Transcript sig) : Prop :=
  ∃ later earlier, t = later ++ ⟨call, .ok v⟩ :: earlier ∧ Unresolved call earlier ∧
    ∀ e ∈ later, e.1 ≠ call ∧ e.1.tellsFailure = false ∧ failed e = false

/-- A call has resolved, and this could not be told. -/
def Torn (call : Cmd) (t : Transcript sig) : Prop := ¬Told t ∧ ∃ v, ⟨call, .ok v⟩ ∈ t

/-- Whatever is returned now, a success has not been preserved. -/
def Spoilt (call : Cmd) (t : Transcript sig) : Prop := ¬Told t ∧ ∀ r, ¬Preserved call r t

/-- Nothing more is asked of the run. -/
def Lost (call : Cmd) (t : Transcript sig) : Prop := Spoilt call t ∨ ¬Builtins t

theorem not_told_cons (h : ¬Told t) : ¬Told (e :: t) :=
  fun htold => h fun e he => htold e (List.mem_cons_of_mem _ he)

theorem Preserved.of_cons {r : Except Thrown (Res call)} (h : Preserved call r (e :: t)) :
    Preserved call r t :=
  ⟨(List.pairwise_cons.mp h.quiet).2, fun v hv => h.returned v (List.mem_cons_of_mem _ hv)⟩

theorem Lost.cons (h : Lost call t) : Lost call (e :: t) := by
  rcases h with ⟨htold, hspoilt⟩ | hbuiltins
  · exact .inl ⟨not_told_cons htold, fun r h => hspoilt r h.of_cons⟩
  · exact .inr fun h => hbuiltins fun e he => h e (List.mem_cons_of_mem _ he)

theorem Torn.cons (h : Torn call t) : Torn call (e :: t) :=
  ⟨not_told_cons h.1, h.2.imp fun _ hv => List.mem_cons_of_mem _ hv⟩

/-- A failure is told although a call has resolved. -/
theorem Torn.lost (h : Torn call t) (he : e.1.tellsFailure = true) : Lost call (e :: t) := by
  obtain ⟨htold, v, hv⟩ := h
  refine .inl ⟨not_told_cons htold, fun r hr => ?_⟩
  have hquiet := ((List.pairwise_cons.mp hr.quiet).1 _ hv v rfl).2
  exact Bool.false_ne_true (hquiet.symm.trans he)

theorem Unresolved.cons (h : Unresolved call t) (hcall : ∀ v, e ≠ ⟨call, .ok v⟩)
    (htells : e.1.tellsSuccess = false) : Unresolved call (e :: t) :=
  List.forall_mem_cons.mpr ⟨⟨hcall, htells⟩, h⟩

theorem Unresolved.told (h : Unresolved call t) : Told t := by
  intro e he htells
  rw [(h e he).2] at htells
  cases htells

theorem Unresolved.preserved (h : Unresolved call t) (r : Except Thrown (Res call)) :
    Preserved call r t where
  quiet := List.pairwise_of_forall_mem_list fun _ _ earlier hearlier v hv =>
    absurd hv ((h earlier hearlier).1 v)
  returned v hv := absurd rfl ((h _ hv).1 v)

theorem Unresolved.resolved (h : Unresolved call t) (v : Res call) :
    Resolved call v (⟨call, .ok v⟩ :: t) :=
  ⟨[], t, rfl, h, by simp⟩

theorem Resolved.cons {v : Res call} (h : Resolved call v t) (hcall : e.1 ≠ call)
    (htells : e.1.tellsFailure = false) (hok : failed e = false) : Resolved call v (e :: t) := by
  obtain ⟨later, earlier, rfl, hearlier, hlater⟩ := h
  exact ⟨e :: later, earlier, rfl, hearlier,
    List.forall_mem_cons.mpr ⟨⟨hcall, htells, hok⟩, hlater⟩⟩

theorem Resolved.torn {v : Res call} (h : Resolved call v t) (htells : e.1.tellsSuccess = true)
    (herr : failed e = true) : Torn call (e :: t) := by
  obtain ⟨later, earlier, rfl, -, -⟩ := h
  refine ⟨fun htold => ?_, v, by simp⟩
  exact Bool.false_ne_true ((htold e List.mem_cons_self htells).symm.trans herr)

theorem Resolved.told {v : Res call} (hcall : call.tellsSuccess = false) (h : Resolved call v t) :
    Told t := by
  obtain ⟨later, earlier, rfl, hearlier, hlater⟩ := h
  intro e he htells
  rcases List.mem_append.mp he with he | he
  · exact (hlater e he).2.2
  · rcases List.mem_cons.mp he with rfl | he
    · exact absurd (hcall.symm.trans htells) Bool.false_ne_true
    · exact hearlier.told e he htells

theorem Resolved.preserved {v : Res call} (h : Resolved call v t) : Preserved call (.ok v) t := by
  obtain ⟨later, earlier, rfl, hearlier, hlater⟩ := h
  refine ⟨?_, fun v' hv' => ?_⟩
  · refine List.pairwise_append.mpr ⟨?_, ?_, ?_⟩
    · exact List.pairwise_of_forall_mem_list fun _ _ e he v' hv' =>
        absurd (congrArg Sigma.fst hv') (hlater e he).1
    · exact List.pairwise_cons.mpr ⟨fun e he v' hv' => absurd hv' ((hearlier e he).1 v'),
        (hearlier.preserved (.ok v)).quiet⟩
    · exact fun e he _ _ _ _ => ⟨(hlater e he).1, (hlater e he).2.1⟩
  · rcases List.mem_append.mp hv' with hv' | hv'
    · exact absurd rfl (hlater _ hv').1
    · rcases List.mem_cons.mp hv' with heq | hv'
      · cases heq
        rfl
      · exact absurd rfl ((hearlier _ hv').1 v')

/-! ### The layers around the call -/

theorem lost_triple {α : Type} (x : Prog α) :
    Handler.Triple Unruled (Lost call) x (fun _ => Lost call) fun _ => Lost call :=
  unruled_of_stable (fun _ _ => Lost.cons) x

/-- After an attempt that has been lost, everything is. -/
theorem attempt_or_lost {x : Prog (Res call)} {P : Transcript sig → Prop}
    {Q : Res call → Transcript sig → Prop} {E : Thrown → Transcript sig → Prop}
    (hx : Handler.Triple Unruled P x (fun v t => Q v t ∨ Lost call t)
      fun err t => E err t ∨ Lost call t) :
    Handler.Triple Unruled (fun t => P t ∨ Lost call t) x (fun v t => Q v t ∨ Lost call t)
      fun err t => E err t ∨ Lost call t :=
  (hx.or (unruled_of_stable (fun _ _ => Lost.cons) x)).conseq (fun _ h => h)
    (fun _ _ h => h.elim id .inr) fun _ _ h => h.elim id .inr

variable (hcall : call.isResilience = false)

include hcall

theorem tellsSuccess_of_call : call.tellsSuccess = false := by
  cases call <;> first | rfl | cases hcall

/-- A command of the layers tells nothing of a success, and the run is as unresolved as before. -/
theorem unresolved_triple {c : Cmd} (hc : c.isResilience = true) (htells : c.tellsSuccess = false) :
    Handler.Triple Unruled (Unresolved call) (command c) (fun _ => Unresolved call)
      fun _ => Unresolved call := by
  have hne : c ≠ call := fun h => Bool.false_ne_true (hcall.symm.trans (h ▸ hc))
  exact unruled_command (fun t r ht => ht.cons (fun v h => hne (congrArg Sigma.fst h)) htells)
    fun t err ht => ht.cons (fun v h => hne (congrArg Sigma.fst h)) htells

variable {env : Env} (name : String)

/-- The report of the success lies inside the `try` block: if it fails, a failure is reported. -/
theorem callThroughBreaker_resolves : Handler.Triple Unruled (Unresolved call)
    (callThroughBreaker env name (command call)) (fun v t => Resolved call v t ∨ Lost call t)
      fun _ t => Unresolved call t ∨ Lost call t := by
  refine Handler.Triple.bind (Q := fun _ => Unresolved call)
    ((unresolved_triple hcall rfl rfl).conseq (fun _ h => h) (fun _ _ h => h) fun _ _ => .inl)
    fun now => ?_
  refine Handler.Triple.bind (Q := fun _ => Unresolved call)
    ((unresolved_triple hcall rfl rfl).conseq (fun _ h => h) (fun _ _ h => h) fun _ _ => .inl)
    fun answer => ?_
  obtain ⟨allowed, state⟩ := answer
  cases allowed with
  | false => exact .throw fun _ h => .inl h
  | true =>
    have hne : ∀ success, Cmd.evalReport name now success env.circuitConfig ≠ call := by
      rintro success rfl
      cases hcall
    refine Handler.Triple.tryCatch (F := fun _ t => Unresolved call t ∨ Torn call t) ?_
      fun err => ?_
    · refine Handler.Triple.bind (Q := Resolved call) (unruled_command
        (fun t v ht => ht.resolved v) fun t err ht => .inl (ht.cons (by simp)
          (tellsSuccess_of_call hcall))) fun v => ?_
      exact Handler.Triple.bind (Q := fun _ => Resolved call v) (unruled_command
        (fun t r ht => ht.cons (hne true) rfl rfl) fun t err ht => .inr (ht.torn rfl rfl))
        fun _ => .pure fun _ h => .inl h
    · refine Handler.Triple.bind (Q := fun _ t => Unresolved call t ∨ Lost call t) ?_
        fun _ => .throw fun _ h => h
      exact (unresolved_triple hcall rfl rfl).or
        (unruled_command (fun t r ht => ht.lost rfl) fun t err ht => ht.lost rfl)

theorem retryFrom_resolves {fn : Prog (Res call)} (shouldRetry : Thrown → Bool)
    (hfn : Handler.Triple Unruled (Unresolved call) fn
      (fun v t => Resolved call v t ∨ Lost call t) fun _ t => Unresolved call t ∨ Lost call t)
    (attempt attemptsLeft : ℕ) : Handler.Triple Unruled (fun t => Unresolved call t ∨ Lost call t)
      (retryFrom env fn shouldRetry attempt attemptsLeft)
      (fun v t => Resolved call v t ∨ Lost call t)
        fun _ t => Unresolved call t ∨ Lost call t := by
  induction attemptsLeft generalizing attempt with
  | zero => exact attempt_or_lost hfn
  | succ attemptsLeft ih =>
    refine (attempt_or_lost hfn).tryCatch fun err => ?_
    split
    · have hquiet : ∀ c : Cmd, c.isResilience = true → c.tellsSuccess = false →
          Handler.Triple Unruled (fun t => Unresolved call t ∨ Lost call t) (command c)
            (fun _ t => Unresolved call t ∨ Lost call t)
            fun _ t => Unresolved call t ∨ Lost call t :=
        fun c hc htells => (unresolved_triple hcall hc htells).or (lost_triple _)
      exact (hquiet .random rfl rfl).bind fun _ => (hquiet _ rfl rfl).bind fun _ => ih _
    · exact .throw fun _ h => h

theorem callProviderResilient_resolves : Handler.Triple Unruled (Unresolved call)
    (callProviderResilient env name (command call))
    (fun v t => Resolved call v t ∨ Lost call t) fun _ t => Unresolved call t ∨ Lost call t := by
  refine Handler.Triple.tryCatch ((retryFrom_resolves hcall _
    (callThroughBreaker_resolves hcall name) 1 _).conseq (fun _ h => .inl h) (fun _ _ h => h)
      fun _ _ h => h) fun err => ?_
  split
  · exact .throw fun _ h => h
  · exact .throw fun _ h => h

/-- The run has ended with `r`: either all successes have been told and one that there was has been
preserved, or neither. -/
def Concluded (call : Cmd) (r : Except Thrown (Res call)) (t : Transcript sig) : Prop :=
  (Told t ∧ Preserved call r t) ∨ (¬Told t ∧ ¬Preserved call r t) ∨ ¬Builtins t

omit hcall in
theorem Lost.concluded (h : Lost call t) (r : Except Thrown (Res call)) : Concluded call r t :=
  h.elim (fun h => .inr (.inl ⟨h.1, h.2 r⟩)) fun h => .inr (.inr h)

omit hcall in
theorem Torn.concluded (h : Torn call t) (err : Thrown) : Concluded call (.error err) t := by
  obtain ⟨htold, v, hv⟩ := h
  exact .inr (.inl ⟨htold, fun hr => nomatch hr.returned v hv⟩)

omit hcall in
theorem Unresolved.concluded (h : Unresolved call t) (r : Except Thrown (Res call)) :
    Concluded call r t :=
  .inl ⟨h.told, h.preserved r⟩

theorem Resolved.concluded {v : Res call} (h : Resolved call v t) : Concluded call (.ok v) t :=
  .inl ⟨h.told (tellsSuccess_of_call hcall), h.preserved⟩

/-- The sample of the success lies inside the `try` block, too. -/
theorem callProviderResilientWithStats_settles : Handler.Triple Unruled (Unresolved call)
    (callProviderResilientWithStats env name (command call)) (fun v => Concluded call (.ok v))
      fun err => Concluded call (.error err) := by
  have hne : ∀ c : Cmd, c.isResilience = true → c ≠ call := by
    rintro c hc rfl
    exact Bool.false_ne_true (hcall.symm.trans hc)
  refine Handler.Triple.bind (Q := fun _ => Unresolved call)
    ((unresolved_triple hcall rfl rfl).conseq (fun _ h => h) (fun _ _ h => h)
      fun err _ h => h.concluded _) fun start => ?_
  refine Handler.Triple.tryCatch
    (F := fun _ t => (Unresolved call t ∨ Lost call t) ∨ Torn call t) ?_ fun err => ?_
  · refine Handler.Triple.bind ((callProviderResilient_resolves hcall name).conseq (fun _ h => h)
      (fun _ _ h => h) fun _ _ => .inl) fun v => ?_
    have hstay : ∀ {c : Cmd} {Q : Res c → Transcript sig → Prop}
        {E : Thrown → Transcript sig → Prop}, Handler.Triple Unruled (Resolved call v) (command c) Q
          E → Handler.Triple Unruled (fun t => Resolved call v t ∨ Lost call t) (command c)
            (fun r t => Q r t ∨ Lost call t) fun err t => E err t ∨ Lost call t :=
      fun h => h.or (lost_triple _)
    refine Handler.Triple.bind (Q := fun _ t => Resolved call v t ∨ Lost call t)
      ((hstay (unruled_command (E := fun _ => Lost call)
        (fun t r ht => ht.cons (hne _ rfl) rfl rfl) fun t err _ => .inr fun h =>
          Bool.false_ne_true (h _ List.mem_cons_self rfl).symm)).conseq (fun _ h => h)
            (fun _ _ h => h) fun _ _ h => .inl (.inr (h.elim id id))) fun now => ?_
    refine Handler.Triple.bind (Q := fun _ t => Resolved call v t ∨ Lost call t)
      ((hstay (unruled_command (E := fun _ => Torn call)
        (fun t r ht => ht.cons (hne _ rfl) rfl rfl) fun t err ht => ht.torn rfl rfl)).conseq
          (fun _ h => h) (fun _ _ h => h) fun _ _ h => h.elim .inr fun h => .inl (.inr h))
            fun _ => .pure fun _ h => h.elim (fun h => h.concluded hcall) fun h => h.concluded _
  · have hend : ∀ err t, (Unresolved call t ∨ Lost call t) ∨ Torn call t →
        Concluded call (.error err) t := by
      rintro err t ((h | h) | h)
      · exact h.concluded _
      · exact h.concluded _
      · exact h.concluded _
    split
    · exact .throw (hend err)
    · have hquiet : ∀ c : Cmd, c.isResilience = true → c.tellsSuccess = false →
          Handler.Triple Unruled (fun t => (Unresolved call t ∨ Lost call t) ∨ Torn call t)
            (command c) (fun _ t => (Unresolved call t ∨ Lost call t) ∨ Torn call t)
            fun _ t => (Unresolved call t ∨ Lost call t) ∨ Torn call t :=
        fun c hc htells => ((unresolved_triple hcall hc htells).or (lost_triple _)).or
          (unruled_of_stable (fun _ _ => Torn.cons) _)
      exact ((hquiet .dateNow rfl rfl).conseq (fun _ h => h) (fun _ _ h => h) hend).bind fun now =>
        ((hquiet _ rfl rfl).conseq (fun _ h => h) (fun _ _ h => h) hend).bind fun _ =>
          .throw (hend err)

end Provider

/-- A success is preserved exactly in the runs in which every report and every sample of a success
is written. -/
theorem preserved_iff {env : Env} {name : String} {call : Cmd} (hcall : call.isResilience = false)
    {r : Except Thrown (Res call)} {t : Transcript sig}
    (h : (callProviderResilientWithStats env name (command call)).run.Ends [] r t)
    (hbuiltins : Builtins t) : Preserved call r t ↔ Told t := by
  have hconcluded : Concluded call r t :=
    unruled_ends (callProviderResilientWithStats_settles hcall name)
      (fun _ h => absurd h List.not_mem_nil) h
  rcases hconcluded with ⟨htold, hr⟩ | ⟨htold, hr⟩ | hlost
  · exact ⟨fun _ => htold, fun _ => hr⟩
  · exact ⟨fun h => absurd h hr, fun h => absurd h htold⟩
  · exact absurd hbuiltins hlost

/-- One call of a provider. -/
def asked : Cmd := .chat ⟨"openai"⟩ (greeting "gpt-4o-mini" none).request

/-- The first attempt fails, and so does the report of it; the second one resolves. -/
theorem preserved_iff_secondAttempt : ∃ t : Transcript sig,
    (callProviderResilientWithStats Env.defaults "openai" (command asked)).run.Ends []
      (.ok (greeted "chatcmpl-1")) t ∧
    Builtins t ∧ ⟨asked, .ok (greeted "chatcmpl-1")⟩ ∈ t ∧
    ⟨.evalReport "openai" 0 false Env.defaults.circuitConfig,
      .error (.error "Connection is closed.")⟩ ∈ t ∧
    (Preserved asked (.ok (greeted "chatcmpl-1")) t ↔ Told t) := by
  obtain ⟨t, hends, hbuiltins, hmem, hreport⟩ : ∃ t : Transcript sig,
      (callProviderResilientWithStats Env.defaults "openai" (command asked)).run.Ends []
        (.ok (greeted "chatcmpl-1")) t ∧ Builtins t ∧ ⟨asked, .ok (greeted "chatcmpl-1")⟩ ∈ t ∧
      ⟨.evalReport "openai" 0 false Env.defaults.circuitConfig,
        .error (.error "Connection is closed.")⟩ ∈ t := by
    refine ⟨_, .issue (.ok (0 : ℤ)) <| .issue (.ok (0 : ℤ)) <| .issue (.ok (true, .closed)) <|
      .issue (.error (.error "fetch failed")) <| .issue (.error (.error "Connection is closed.")) <|
      .issue (.ok (0 : ℚ)) <| .issue (.ok ()) <| .issue (.ok (1000 : ℤ)) <|
      .issue (.ok (true, .closed)) <| .issue (.ok (greeted "chatcmpl-1")) <|
      .issue (.ok .closed) <| .issue (.ok (1001 : ℤ)) <| .issue (.ok ()) <| .done _ _, ?_, ?_, ?_⟩
    · simp [Builtins, failed, Cmd.isBuiltin, asked]
    · simp [asked]
    · simp
  exact ⟨t, hends, hbuiltins, hmem, hreport, preserved_iff rfl hends hbuiltins⟩

/-- The call resolves at the first attempt, its report fails, and the call is made again. -/
theorem preserved_fails : ∃ t : Transcript sig,
    (callProviderResilientWithStats Env.defaults "openai" (command asked)).run.Ends []
      (.ok (greeted "chatcmpl-2")) t ∧
    Builtins t ∧ ¬Preserved asked (.ok (greeted "chatcmpl-2")) t := by
  obtain ⟨t, hends, hbuiltins, hmem⟩ : ∃ t : Transcript sig,
      (callProviderResilientWithStats Env.defaults "openai" (command asked)).run.Ends []
        (.ok (greeted "chatcmpl-2")) t ∧ Builtins t ∧ ⟨asked, .ok (greeted "chatcmpl-1")⟩ ∈ t := by
    refine ⟨_, .issue (.ok (0 : ℤ)) <| .issue (.ok (0 : ℤ)) <| .issue (.ok (true, .closed)) <|
      .issue (.ok (greeted "chatcmpl-1")) <| .issue (.error (.error "Connection is closed.")) <|
      .issue (.ok .closed) <| .issue (.ok (0 : ℚ)) <| .issue (.ok ()) <| .issue (.ok (1000 : ℤ)) <|
      .issue (.ok (true, .closed)) <| .issue (.ok (greeted "chatcmpl-2")) <|
      .issue (.ok .closed) <| .issue (.ok (1001 : ℤ)) <| .issue (.ok ()) <| .done _ _, ?_, ?_⟩
    · simp [Builtins, failed, Cmd.isBuiltin]
    · simp [asked]
  exact ⟨t, hends, hbuiltins, fun h =>
    absurd (Except.ok.inj (h.returned _ hmem)) (show greeted "chatcmpl-2" ≠ _ by decide)⟩

/-! ## Coalesced calls -/

/-- The write of a result under the key, or to the channel. -/
def Cmd.sharesResult : Cmd → Bool
  | .redisSet .. | .publish _ (some _) => true
  | _ => false

/-- The release of the key, or the signal that the leader has failed. -/
def Cmd.sharesFailure : Cmd → Bool
  | .redisDel _ | .publish _ none => true
  | _ => false

/-- The caller has become the leader. -/
def claims : Exchange sig → Bool
  | ⟨.redisSetNx .., .ok true⟩ => true
  | _ => false

/-- The call that a caller has made is what it returns, it makes none after one that has resolved,
and nobody is told that such a one has failed: what followers hear is what leaders publish. -/
structure Transparent (name : String) (call : Cmd) (r : Except Thrown (Res call))
    (t : Transcript sig) : Prop where
  once : t.Pairwise fun later earlier => ∀ v, earlier = ⟨call, .ok v⟩ →
    later.1 ≠ call ∧ later.1 ≠ .publish (resultChannel name) none
  returned : ∀ v, ⟨call, .ok v⟩ ∈ t → r = .ok v
  rejected : (∃ e ∈ t, claims e = true) → ∀ err, ⟨call, .error err⟩ ∈ t → r = .error err

/-- A result has been shared, and a failure has been or has met the same error. -/
structure Shared (call : Cmd) (t : Transcript sig) : Prop where
  results : ∀ e ∈ t, e.1.sharesResult = true → failed e = false
  failures : ∀ c err, ⟨c, .error err⟩ ∈ t → c.sharesFailure = true → ⟨call, .error err⟩ ∈ t

section Coalescing

variable {name : String} {call : Cmd} {t : Transcript sig} {e : Exchange sig}

/-- Either the call has been shared and coalescing cannot be seen, or neither. -/
def CoalescedCall (name : String) (call : Cmd) (r : Except Thrown (Res call))
    (t : Transcript sig) : Prop :=
  Transparent name call r t ∧ Shared call t ∨ ¬Transparent name call r t ∧ ¬Shared call t

/-- Where no call has resolved, there is nothing to repeat. -/
theorem once_of_unresolved (h : ∀ v, ⟨call, .ok v⟩ ∉ t) :
    t.Pairwise fun later earlier => ∀ v, earlier = ⟨call, .ok v⟩ →
      later.1 ≠ call ∧ later.1 ≠ .publish (resultChannel name) none :=
  List.pairwise_of_forall_mem_list fun _ _ _ hearlier v hv => absurd (hv ▸ hearlier) (h v)

/-- The caller has not made its call, and is no leader. -/
def Following (call : Cmd) (t : Transcript sig) : Prop :=
  ∀ e ∈ t, e.1 ≠ call ∧ e.1.sharesResult = false ∧ e.1.sharesFailure = false ∧ claims e = false

theorem Following.cons (h : Following call t) (hcall : e.1 ≠ call)
    (hresult : e.1.sharesResult = false) (hfailure : e.1.sharesFailure = false)
    (hclaims : claims e = false) : Following call (e :: t) :=
  List.forall_mem_cons.mpr ⟨⟨hcall, hresult, hfailure, hclaims⟩, h⟩

/-- Whoever does not lead shares nothing. -/
theorem shared_of_not_shares (h : ∀ e ∈ t, e.1.sharesResult = false ∧ e.1.sharesFailure = false) :
    Shared call t where
  results e he hshares := absurd ((h e he).1.symm.trans hshares) Bool.false_ne_true
  failures _ _ he hshares := absurd ((h _ he).2.symm.trans hshares) Bool.false_ne_true

theorem Following.coalesced (h : Following call t) (r : Except Thrown (Res call)) :
    CoalescedCall name call r t := by
  have hcall : ∀ x, (⟨call, x⟩ : Exchange sig) ∉ t := fun _ hx => (h _ hx).1 rfl
  exact .inl ⟨⟨once_of_unresolved fun v => hcall (.ok v), fun v hv => absurd hv (hcall _),
    fun _ err herr => absurd herr (hcall _)⟩, shared_of_not_shares fun e he =>
      ⟨(h e he).2.1, (h e he).2.2.1⟩⟩

/-- A follower that makes its call itself returns what it returns. -/
theorem Following.coalesced_cons (h : Following call t) (hresult : call.sharesResult = false)
    (hfailure : call.sharesFailure = false) (r : Except Thrown (Res call))
    (hclaims : claims ⟨call, r⟩ = false) : CoalescedCall name call r (⟨call, r⟩ :: t) := by
  have hcall : ∀ x, (⟨call, x⟩ : Exchange sig) ∉ t := fun _ hx => (h _ hx).1 rfl
  refine .inl ⟨⟨List.pairwise_cons.mpr ⟨?_, once_of_unresolved fun v => hcall (.ok v)⟩, ?_, ?_⟩, ?_⟩
  · exact fun e he v hv => absurd (hv ▸ he) (hcall _)
  · intro v hv
    rcases List.mem_cons.mp hv with heq | hv
    · cases heq
      rfl
    · exact absurd hv (hcall _)
  · rintro ⟨e, he, hlead⟩
    rcases List.mem_cons.mp he with rfl | he
    · exact absurd (hclaims.symm.trans hlead) Bool.false_ne_true
    · exact absurd ((h e he).2.2.2.symm.trans hlead) Bool.false_ne_true
  · exact shared_of_not_shares (List.forall_mem_cons.mpr
      ⟨⟨hresult, hfailure⟩, fun e he => ⟨(h e he).2.1, (h e he).2.2.1⟩⟩)

/-- The call of a leader has resolved, and its result could not be shared. -/
def Unshared (call : Cmd) (t : Transcript sig) : Prop :=
  (∃ v, ⟨call, .ok v⟩ ∈ t) ∧ ∃ e ∈ t, e.1.sharesResult = true ∧ failed e = true

theorem Unshared.cons (h : Unshared call t) : Unshared call (e :: t) := by
  obtain ⟨⟨v, hv⟩, e', he', hfails⟩ := h
  exact ⟨⟨v, List.mem_cons_of_mem _ hv⟩, e', List.mem_cons_of_mem _ he', hfails⟩

theorem Unshared.coalesced (h : Unshared call t) (err : Thrown) :
    CoalescedCall name call (.error err) t := by
  obtain ⟨⟨v, hv⟩, e, he, hshares, hfails⟩ := h
  exact .inr ⟨fun ht => (nomatch ht.returned v hv), fun hs =>
    Bool.false_ne_true ((hs.results e he hshares).symm.trans hfails)⟩

theorem not_sharesResult {c : Cmd} (h : c.sharesFailure = true) : ¬c.sharesResult = true := by
  unfold Cmd.sharesFailure at h
  split at h
  · exact Bool.false_ne_true
  · exact Bool.false_ne_true
  · cases h

/-- The claim of the key has been answered. -/
def claim (name : String) (ttlMs : ℕ) (claimed : Bool) : Exchange sig :=
  ⟨.redisSetNx (dedupKey name) .processing ttlMs, .ok claimed⟩

theorem claim_ne (hcall : call.touches name = false) {ttlMs : ℕ} {claimed : Bool} :
    (claim name ttlMs claimed).1 ≠ call := by
  intro h
  rw [← h] at hcall
  simp [claim, Cmd.touches] at hcall

/-- The call of a leader has resolved with `v`, and nothing has failed since. -/
def Sharing (name : String) (ttlMs : ℕ) (call : Cmd) (v : Res call) (t : Transcript sig) : Prop :=
  ∃ later, t = later ++ [⟨call, .ok v⟩, claim name ttlMs true] ∧
    ∀ e ∈ later, e.1.sharesResult = true ∧ failed e = false

theorem Sharing.cons {ttlMs : ℕ} {v : Res call} (h : Sharing name ttlMs call v t)
    (hshares : e.1.sharesResult = true) (hok : failed e = false) :
    Sharing name ttlMs call v (e :: t) := by
  obtain ⟨later, rfl, hlater⟩ := h
  exact ⟨e :: later, rfl, List.forall_mem_cons.mpr ⟨⟨hshares, hok⟩, hlater⟩⟩

theorem Sharing.unshared {ttlMs : ℕ} {v : Res call} (h : Sharing name ttlMs call v t)
    (hshares : e.1.sharesResult = true) (herr : failed e = true) : Unshared call (e :: t) := by
  obtain ⟨later, rfl, -⟩ := h
  exact ⟨⟨v, by simp⟩, e, List.mem_cons_self, hshares, herr⟩

theorem Sharing.coalesced {ttlMs : ℕ} {v : Res call} (h : Sharing name ttlMs call v t)
    (hcall : call.touches name = false) (hresult : call.sharesResult = false) :
    CoalescedCall name call (.ok v) t := by
  obtain ⟨later, rfl, hlater⟩ := h
  have hmem : ∀ x, (⟨call, x⟩ : Exchange sig) ∈ later ++ [⟨call, .ok v⟩, claim name ttlMs true] →
      x = .ok v := by
    intro x hx
    rcases List.mem_append.mp hx with hx | hx
    · exact absurd (hresult.symm.trans (hlater _ hx).1) Bool.false_ne_true
    · rcases List.mem_pair.mp hx with heq | heq
      · cases heq
        rfl
      · exact absurd (congrArg Sigma.fst heq.symm) (claim_ne hcall)
  refine .inl
    ⟨⟨?_, fun v' hv' => (hmem _ hv').symm, fun _ err herr => (nomatch hmem _ herr)⟩, ?_, ?_⟩
  · refine List.pairwise_append.mpr ⟨?_, ?_, ?_⟩
    · exact once_of_unresolved fun v' hv' =>
        absurd (hresult.symm.trans (hlater _ hv').1) Bool.false_ne_true
    · refine List.pairwise_pair.mpr fun v' hv' => ?_
      exact absurd (congrArg Sigma.fst hv') (claim_ne hcall)
    · intro e he _ _ _ _
      refine ⟨fun heq => ?_, fun heq => ?_⟩
      · exact absurd (hresult.symm.trans (heq ▸ (hlater e he).1)) Bool.false_ne_true
      · exact absurd (hlater e he).1 (not_sharesResult (by rw [heq]; rfl))
  · intro e he hshares
    rcases List.mem_append.mp he with he | he
    · exact (hlater e he).2
    · rcases List.mem_pair.mp he with rfl | rfl
      · exact absurd (hresult.symm.trans hshares) Bool.false_ne_true
      · rfl
  · intro c err herr hshares
    rcases List.mem_append.mp herr with herr | herr
    · exact absurd (hlater _ herr).1 (not_sharesResult hshares)
    · rcases List.mem_pair.mp herr with heq | heq
      · cases heq
      · cases heq

/-- The call of a leader has been rejected with `err`. -/
def rejected (name : String) (ttlMs : ℕ) (call : Cmd) (err : Thrown) : Transcript sig :=
  [⟨call, .error err⟩, claim name ttlMs true]

/-- It throws the error of the call, or that of its own clean-up. -/
theorem rejected_coalesced {ttlMs : ℕ} {err d : Thrown} (later : Transcript sig)
    (hcall : call.touches name = false) (hresult : call.sharesResult = false)
    (hfailure : call.sharesFailure = false)
    (hlater : ∀ e ∈ later, e.1.sharesFailure = true)
    (hfailed : ∀ c x, ⟨c, .error x⟩ ∈ later → x = d) (hd : d = err ∨ ∃ c, ⟨c, .error d⟩ ∈ later) :
    CoalescedCall name call (.error d) (later ++ rejected name ttlMs call err) := by
  have hmem : ∀ x, (⟨call, x⟩ : Exchange sig) ∈ later ++ rejected name ttlMs call err →
      x = .error err := by
    intro x hx
    rcases List.mem_append.mp hx with hx | hx
    · exact absurd (hfailure.symm.trans (hlater _ hx)) Bool.false_ne_true
    · rcases List.mem_pair.mp hx with heq | heq
      · cases heq
        rfl
      · exact absurd (congrArg Sigma.fst heq.symm) (claim_ne hcall)
  have herr : (⟨call, .error err⟩ : Exchange sig) ∈ later ++ rejected name ttlMs call err := by
    simp [rejected]
  by_cases hsame : d = err
  · subst hsame
    refine .inl ⟨⟨once_of_unresolved fun v hv => (nomatch hmem _ hv),
      fun v hv => (nomatch hmem _ hv), fun _ x hx => (hmem _ hx).symm⟩, ?_, ?_⟩
    · intro e he hshares
      rcases List.mem_append.mp he with he | he
      · exact absurd hshares (not_sharesResult (hlater e he))
      · rcases List.mem_pair.mp he with rfl | rfl
        · exact absurd (hresult.symm.trans hshares) Bool.false_ne_true
        · rfl
    · intro c x hc hshares
      rcases List.mem_append.mp hc with hc | hc
      · exact hfailed c x hc ▸ herr
      · rcases List.mem_pair.mp hc with heq | heq
        · cases heq
          exact herr
        · cases heq
  · obtain ⟨c, hc⟩ := hd.resolve_left hsame
    refine .inr ⟨fun ht => ?_, fun hs => ?_⟩
    · have hreturned := ht.rejected ⟨_, List.mem_append_right _
        (List.mem_cons_of_mem _ List.mem_cons_self), rfl⟩ err herr
      exact hsame (Except.error.inj hreturned)
    · have hmet := hs.failures c d (List.mem_append_left _ hc) (hlater _ hc)
      exact hsame (Except.error.inj (hmem _ hmet))

section Caller

variable {env : Env} {provider : Provider} {req : ChatRequest}

/-- A command of a caller that does not lead. -/
theorem following_triple {c : Cmd} (hcall : c ≠ .chat provider req)
    (hresult : c.sharesResult = false) (hfailure : c.sharesFailure = false)
    (hclaims : ∀ r, claims ⟨c, r⟩ = false) :
    Handler.Triple Unruled (Following (.chat provider req)) (command c)
      (fun _ => Following (.chat provider req)) fun _ => Following (.chat provider req) :=
  unruled_command (fun _ _ ht => ht.cons hcall hresult hfailure (hclaims _))
    fun _ _ ht => ht.cons hcall hresult hfailure (hclaims _)

theorem getDedupResult_following : Handler.Triple Unruled (Following (.chat provider req))
    (getDedupResult name) (fun _ => Following (.chat provider req))
      fun _ => Following (.chat provider req) := by
  simp only [getDedupResult, getAs, bind_assoc]
  refine (following_triple (by simp) rfl rfl fun _ => rfl).bind fun cached => ?_
  rcases cached with _ | value
  · exact .pure fun _ h => h
  · dsimp only
    split
    · exact .pure fun _ h => h
    · exact .throw fun _ h => h

theorem waitForLeader_coalesced : Handler.Triple Unruled (Following (.chat provider req))
    (waitForLeader name (command (.chat provider req)))
    (fun v => CoalescedCall name (.chat provider req) (.ok v))
      fun err => CoalescedCall name (.chat provider req) (.error err) := by
  refine Handler.Triple.tryCatch (F := fun _ => Following (.chat provider req)) ?_ fun _ =>
    unruled_command (fun t v ht => ht.coalesced_cons rfl rfl _ rfl)
      fun t err ht => ht.coalesced_cons rfl rfl _ rfl
  refine (following_triple (by simp) rfl rfl fun _ => rfl).bind fun since => ?_
  refine getDedupResult_following.bind fun recheck => ?_
  cases recheck with
  | some v => exact .pure fun _ h => h.coalesced _
  | none =>
    refine (following_triple (by simp) rfl rfl fun _ => rfl).bind fun message => ?_
    rcases message with _ | _ | v
    · exact .throw fun _ h => h
    · exact .throw fun _ h => h
    · exact .pure fun _ h => h.coalesced _

theorem withRequestDedup_coalesced : Handler.Triple Unruled (· = [])
    (withRequestDedup env name (command (.chat provider req)))
    (fun v => CoalescedCall name (.chat provider req) (.ok v))
      fun err => CoalescedCall name (.chat provider req) (.error err) := by
  obtain ⟨ttlMs, httl⟩ : ∃ ttlMs, ttlMs = (env.dedupLeaderTtlSeconds : ℕ) * 1000 := ⟨_, rfl⟩
  have hfollowing : Following (.chat provider req) [] := fun _ he => absurd he List.not_mem_nil
  refine Handler.Triple.bind (Q := fun claimed t => t = [claim name ttlMs claimed])
    (unruled_command (fun t r ht => by rw [ht, httl]; rfl) fun t err ht => ?_) fun claimed => ?_
  · subst ht
    exact (hfollowing.cons (by simp) rfl rfl rfl).coalesced _
  cases claimed with
  | true =>
    refine Handler.Triple.tryCatch (F := fun err t => Unshared (.chat provider req) t ∨
      t = rejected name ttlMs (.chat provider req) err) ?_ fun err => ?_
    · -- the leader calls, stores the response and publishes it
      refine Handler.Triple.bind (Q := Sharing name ttlMs (.chat provider req)) (unruled_command
        (fun t v ht => ⟨[], by rw [ht]; rfl, by simp⟩) fun t err ht => .inr (by rw [ht]; rfl))
          fun v => ?_
      refine Handler.Triple.bind (Q := fun _ => Sharing name ttlMs (.chat provider req) v)
        (unruled_command (fun t r ht => ht.cons rfl rfl)
          fun t err ht => .inl (ht.unshared rfl rfl)) fun _ => ?_
      exact Handler.Triple.bind (Q := fun _ => Sharing name ttlMs (.chat provider req) v)
        (unruled_command (fun t r ht => ht.cons rfl rfl)
          fun t err ht => .inl (ht.unshared rfl rfl)) fun _ => .pure fun _ h => h.coalesced rfl rfl
    · -- the call has failed, or what shares its response has
      have hclean : ∀ (c : Cmd) (later : Transcript sig), c.sharesFailure = true →
          (∀ e ∈ later, e.1.sharesFailure = true ∧ failed e = false) →
          Handler.Triple Unruled (fun t => Unshared (.chat provider req) t ∨
              t = later ++ rejected name ttlMs (.chat provider req) err) (command c)
            (fun r t => Unshared (.chat provider req) t ∨
              t = ⟨c, .ok r⟩ :: later ++ rejected name ttlMs (.chat provider req) err)
            fun d => CoalescedCall name (.chat provider req) (.error d) := by
        intro c later hc hlater
        refine unruled_command (fun t r ht => ht.imp Unshared.cons fun ht => by rw [ht]; rfl)
          fun t d ht => ?_
        rcases ht with ht | rfl
        · exact ht.cons.coalesced d
        · refine rejected_coalesced (⟨c, .error d⟩ :: later) rfl rfl rfl ?_ (fun c' x hx => ?_) ?_
          · exact List.forall_mem_cons.mpr ⟨hc, fun e he => (hlater e he).1⟩
          · rcases List.mem_cons.mp hx with heq | hx
            · cases heq
              rfl
            · exact absurd (hlater _ hx).2.symm Bool.false_ne_true
          · exact .inr ⟨c, List.mem_cons_self⟩
      refine Handler.Triple.bind (hclean (.redisDel (dedupKey name)) [] rfl (by simp)) fun _ => ?_
      refine Handler.Triple.bind (hclean (.publish (resultChannel name) none) [_] rfl
        (by simp [Cmd.sharesFailure, failed])) fun _ => .throw fun t ht => ?_
      rcases ht with ht | rfl
      · exact ht.coalesced err
      · refine rejected_coalesced [_, _] rfl rfl rfl (by simp [Cmd.sharesFailure])
          (fun c x hx => ?_) (.inl rfl)
        rcases List.mem_pair.mp hx with heq | heq
        · cases heq
        · cases heq
  | false =>
    refine Handler.Triple.conseq (P := Following (.chat provider req)) ?_ (fun t ht => ?_)
      (fun _ _ h => h) fun _ _ h => h
    · refine Handler.Triple.bind (getDedupResult_following.conseq (fun _ h => h) (fun _ _ h => h)
        fun _ _ h => h.coalesced _) fun existing => ?_
      cases existing with
      | some v => exact .pure fun _ h => h.coalesced _
      | none => exact waitForLeader_coalesced
    · subst ht
      exact hfollowing.cons (by simp [claim]) rfl rfl rfl

end Caller

end Coalescing

/-- Coalescing is transparent exactly in the runs in which neither the SET nor the PUBLISH of a
result fails, and the DEL and the PUBLISH of a failure at most fail with the error of the call. -/
theorem transparent_iff {env : Env} {name : String} {provider : Provider} {req : ChatRequest}
    {r : Except Thrown ChatResponse} {t : Transcript sig}
    (h : (withRequestDedup env name (command (.chat provider req))).run.Ends [] r t) :
    Transparent name (.chat provider req) r t ↔ Shared (.chat provider req) t := by
  have hends : CoalescedCall name (.chat provider req) r t :=
    unruled_ends withRequestDedup_coalesced rfl h
  rcases hends with ⟨hr, hshared⟩ | ⟨hr, hshared⟩
  · exact ⟨fun _ => hshared, fun _ => hr⟩
  · exact ⟨fun h => absurd h hr, fun h => absurd h hshared⟩

/-- A leader stores and publishes its result. A follower cannot subscribe, and makes the call
itself. -/
theorem transparent_iff_both : (∃ t : Transcript sig,
      (withRequestDedup Env.defaults "greeting" (command asked)).run.Ends []
        (.ok (greeted "chatcmpl-1")) t ∧ ⟨asked, .ok (greeted "chatcmpl-1")⟩ ∈ t ∧
      (Transparent "greeting" asked (.ok (greeted "chatcmpl-1")) t ↔ Shared asked t)) ∧
    ∃ t : Transcript sig,
      (withRequestDedup Env.defaults "greeting" (command asked)).run.Ends []
        (.ok (greeted "chatcmpl-2")) t ∧ ⟨asked, .ok (greeted "chatcmpl-2")⟩ ∈ t ∧
      ⟨.subscribe (resultChannel "greeting"), .error (.error "Connection is closed.")⟩ ∈ t ∧
      (Transparent "greeting" asked (.ok (greeted "chatcmpl-2")) t ↔ Shared asked t) := by
  constructor
  · obtain ⟨t, hends, hmem⟩ : ∃ t : Transcript sig,
        (withRequestDedup Env.defaults "greeting" (command asked)).run.Ends []
          (.ok (greeted "chatcmpl-1")) t ∧ ⟨asked, .ok (greeted "chatcmpl-1")⟩ ∈ t := by
      refine ⟨_, .issue (.ok true) <| .issue (.ok (greeted "chatcmpl-1")) <| .issue (.ok ()) <|
        .issue (.ok ()) <| .done _ _, ?_⟩
      simp [asked]
    exact ⟨t, hends, hmem, transparent_iff hends⟩
  · obtain ⟨t, hends, hmem, hsubscribe⟩ : ∃ t : Transcript sig,
        (withRequestDedup Env.defaults "greeting" (command asked)).run.Ends []
          (.ok (greeted "chatcmpl-2")) t ∧ ⟨asked, .ok (greeted "chatcmpl-2")⟩ ∈ t ∧
        ⟨.subscribe (resultChannel "greeting"), .error (.error "Connection is closed.")⟩ ∈ t := by
      refine ⟨_, .issue (.ok false) <| .issue (.ok none) <|
        .issue (.error (.error "Connection is closed.")) <| .issue (.ok (greeted "chatcmpl-2")) <|
        .done _ _, ?_, ?_⟩
      · simp [asked]
      · simp
    exact ⟨t, hends, hmem, hsubscribe, transparent_iff hends⟩

/-- The result cannot be stored: the leader throws, and tells its followers that it has failed. -/
theorem transparent_fails : ∃ t : Transcript sig,
    (withRequestDedup Env.defaults "greeting" (command asked)).run.Ends []
      (.error (.error "Connection is closed.")) t ∧ ⟨asked, .ok (greeted "chatcmpl-1")⟩ ∈ t ∧
    ⟨.publish (resultChannel "greeting") none, .ok ()⟩ ∈ t ∧
    ¬Transparent "greeting" asked (.error (.error "Connection is closed.")) t := by
  obtain ⟨t, hends, hmem, hsignal⟩ : ∃ t : Transcript sig,
      (withRequestDedup Env.defaults "greeting" (command asked)).run.Ends []
        (.error (.error "Connection is closed.")) t ∧ ⟨asked, .ok (greeted "chatcmpl-1")⟩ ∈ t ∧
      ⟨.publish (resultChannel "greeting") none, .ok ()⟩ ∈ t := by
    refine ⟨_, .issue (.ok true) <| .issue (.ok (greeted "chatcmpl-1")) <|
      .issue (.error (.error "Connection is closed.")) <| .issue (.ok ()) <| .issue (.ok ()) <|
      .done _ _, ?_, ?_⟩
    · simp [asked]
    · simp
  exact ⟨t, hends, hmem, hsignal, fun h => (nomatch h.returned _ hmem)⟩

end CloudMesh.Gateway
