import CloudMesh.Gateway.Budget

/-!
# An exhausted budget

The budget of an org is checked by `POST /v1/chat` and by `POST /v1/jobs`, each in its own place,
and it is not checked by `POST /v1/jobs/:id/replay`, which puts a job back into the queue that the
workers spend money on.

## Main definitions

- `Exhausted` — the org enforces its budget, and has spent it
- `AdmitsNothing` — what the requests of the org may not cause
- `PaidReplay` — the step of a replay that is not checked
- `admitsNothing_of_exhausted` — every run without such a step admits nothing
-/

namespace CloudMesh.Gateway

open Concurrent

/-! ## Work that is paid for -/

/-- The command asks a provider for something. -/
def Cmd.callsProvider : Cmd → Bool
  | .chat .. | .streamOpen .. | .streamRest .. | .embed _ => true
  | _ => false

/-- The handler of the job asks a provider for something. -/
def JobPayload.callsProvider (env : Env) : JobPayload → Bool
  | .batchEmbeddings texts => !texts.isEmpty
  | .bulkChat model prompts => (env.registry.resolve model).isSome && !prompts.isEmpty

/-- The three routes through which an org has work done. -/
def Op.isSpending : Op → Bool
  | .chat _ | .createJob _ | .replayJob _ => true
  | _ => false

/-- The row that a worker will find for a job. -/
def Store.jobRow (s : Store) (orgId : OrgId) (id : Uuid) : Option JobRow :=
  (s.jobsOf orgId).find? fun row => row.id = id

/-- No request that has been started since `c₁` has called a provider, or has enqueued a job that
will. -/
def AdmitsNothing (env : Env) (orgId : OrgId) (c₁ c : GatewayConfig) : Prop :=
  ∀ e ∈ c.world.history, e.pid.orgId = orgId → c₁.procs e.pid = none →
    ∀ P, c.procs e.pid = some P → P.op.isSpending = true →
      e.cmd.callsProvider = false ∧
      ∀ data priority, e.cmd = .queueAdd data priority →
        ∀ row, c.world.shared.jobRow data.orgId data.jobRecordId = some row →
          row.payload.callsProvider env = false

/-! ## The states -/

deriving instance DecidableEq for OrgRow

/-- The org has this row, with this budget, enforces it and has spent it in this month, and no other
flags are cached. -/
structure Exhausted (orgId : OrgId) (row : OrgRow) (budget : ℚ) (month : ℤ) (s : Store) : Prop where
  org : s.organizations orgId = some row
  enforced : row.featureFlags.billingEnforcement = true
  priced : row.monthlyBudgetOverrideUsd = some budget ∨
    row.monthlyBudgetOverrideUsd = none ∧ s.billingPlans row.plan = some budget
  current : startOfCurrentMonthUtc s.clock = month
  spent : budget ≤ recordedSpend orgId month s
  cache : ∀ flags, s.value (flagsKey orgId) = some (.flags flags) → flags = row.featureFlags

/-- The process is a replay of the job. -/
def GatewayConfig.replays (c : GatewayConfig) (p : Pid) (id : Uuid) : Bool :=
  match c.procs p with
  | some ⟨.replayJob id', _, _⟩ => id' = id
  | _ => false

/-- The job that the command looks up. -/
def Cmd.lookedUp : Cmd → Option Uuid
  | .findJob _ id => some id
  | _ => none

/-- The job is dead, and would call a provider. -/
def Store.isDeadPaid (s : Store) (env : Env) (orgId : OrgId) (id : Uuid) : Bool :=
  (s.jobRow orgId id).any fun row => row.status = .deadLetter && row.payload.callsProvider env

/-- A replay, which has looked the job up before, finds it dead, and the job would call a
provider. -/
def PaidReplay (env : Env) (orgId : OrgId) (c : GatewayConfig) : Action sig Pid Drift Op → Prop
  | .command e =>
    e.pid.orgId = orgId ∧
      (e.cmd.lookedUp.any fun id => c.replays e.pid id &&
        c.world.shared.isDeadPaid env orgId id) = true ∧
      ∃ e' ∈ c.world.history, e'.pid = e.pid
  | _ => False

/-! ## The rules -/

/-- A replay enqueues the job only if its second look-up has found it dead. -/
def ReplayRule (orgId : OrgId) (id : Uuid) (t : Transcript sig) (c : Cmd) : Prop :=
  c.callsProvider = false ∧
  ∀ data priority, c = .queueAdd data priority → data.orgId = orgId ∧
    ∃ row earlier, ⟨.findJob orgId id, .ok (some row)⟩ :: earlier <:+ t ∧ earlier ≠ [] ∧
      row.status = .deadLetter ∧ row.id = data.jobRecordId

def AdmissionRule (p : Pid) : Op → Transcript sig → Cmd → Prop
  | .chat _, t, c | .createJob _, t, c => BudgetRule p.orgId t c
  | .replayJob id, t, c => ReplayRule p.orgId id t c
  | _, _, _ => True

section Rules

variable {orgId : OrgId} {α : Type}

theorem callsProvider_of_isCheck {c : Cmd} (h : c.isCheck = true) :
    c.callsProvider = false ∧ ∀ data priority, c ≠ .queueAdd data priority := by
  cases c with
  | queueAdd | chat | streamOpen | streamRest | embed => cases h
  | _ => exact ⟨rfl, fun _ _ heq => by cases heq⟩

theorem createJob_budget (deps : Deps) (input : CreateJobInput) :
    Handler.Triple (BudgetRule orgId) Unchecked (createJob deps orgId input) (fun _ _ => True)
      fun _ _ => True := by
  refine getOrgFeatureFlags_triple.bind fun flags => ?_
  refine Handler.Triple.bind (Q := fun _ => Proceeding orgId) ?_ fun _ => ?_
  · split
    · exact ((enforceBudget_triple deps.env).conseq (fun _ h => h.1)
        (fun _ _ h => ⟨.inr h.1, h.2⟩) fun _ _ h => h).bind fun _ => .pure fun _ h => h
    · rename_i hoff
      exact .pure fun t h => ⟨.inl ⟨flags, h.2, Bool.eq_false_of_not_eq_true hoff⟩, h.1.2⟩
  -- what is left neither reads nor records a spend
  have hrest : Handler.Every (fun c : Cmd => c.isAccounting = false) (do
      let id ← command (.createJobRow orgId input.apiKeyId input.payload
        (toPriorityValue input.priority))
      enqueue orgId id input.payload.type (toPriorityValue input.priority)
      pure (⟨202, [], .accepted id .queued input.payload.type
        (toPriorityValue input.priority)⟩ : Reply)) := by
    have hcommand : ∀ c : Cmd, c.isAccounting = false →
        Handler.Every (fun c : Cmd => c.isAccounting = false) (command c) :=
      fun _ hc => every_command hc
    refine (hcommand _ rfl).bind fun id => Handler.Every.bind ?_ fun _ => Handler.every_pure _
    refine (hcommand _ rfl).bind fun bullJobId => (hcommand _ rfl).bind fun found => ?_
    cases found with
    | true => exact Handler.every_pure _
    | false => exact Handler.every_throw _
  exact (Handler.Triple.of_every hrest (fun t c h hc => budgetRule_of_isAccounting hc fun _ => h.1)
    fun t c r h hc => lasting_proceeding t c r h hc).conseq (fun _ h => h) (fun _ _ _ => trivial)
      fun _ _ _ => trivial

theorem updateRow_replay {id jobId : Uuid} {update : JobUpdate} {P : Transcript sig → Prop}
    (hP : ∀ t e, P t → P (e :: t)) :
    Handler.Triple (ReplayRule orgId id) P (updateRow orgId jobId update) (fun _ => P)
      fun _ _ => True := by
  refine Handler.Triple.bind (Q := fun _ => P) (command_triple
    (fun _ _ => ⟨rfl, fun _ _ heq => by cases heq⟩) (fun t r ht => hP t _ ht)
      fun _ _ _ => trivial) fun found => ?_
  cases found with
  | true => exact .pure fun _ h => h
  | false => exact .throw fun _ _ => trivial

/-- A look-up is no provider call and enqueues nothing. -/
theorem findJob_replay {id : Uuid} {P : Transcript sig → Prop} {Q : Option JobRow →
    Transcript sig → Prop} (hQ : ∀ t row, P t → Q row (⟨.findJob orgId id, .ok row⟩ :: t)) :
    Handler.Triple (ReplayRule orgId id) P (command (.findJob orgId id)) Q fun _ _ => True :=
  command_triple (fun _ _ => ⟨rfl, fun _ _ heq => by cases heq⟩) hQ fun _ _ _ => trivial

theorem replayJob_admission (id : Uuid) : Handler.Triple (ReplayRule orgId id) (fun _ => True)
    (replayJob orgId id) (fun _ _ => True) fun _ _ => True := by
  refine Handler.Triple.bind (Q := fun _ t => t ≠ []) ?_ fun _ => ?_
  · refine (findJob_replay (Q := fun _ t => t ≠ []) fun _ _ _ => by simp).bind fun job => ?_
    cases job with
    | none => exact .throw fun _ _ => trivial
    | some row => exact .pure fun _ h => h
  refine (findJob_replay (Q := fun job t => ∃ earlier, earlier ≠ [] ∧
    ⟨.findJob orgId id, .ok job⟩ :: earlier <:+ t) fun t row h =>
      ⟨t, h, List.suffix_rfl⟩).bind fun job => ?_
  cases job with
  | none => exact .pure fun _ _ => trivial
  | some row =>
    dsimp only
    split
    · exact .throw fun _ _ => trivial
    · rename_i hstatus
      let P (t : Transcript sig) : Prop := ∃ earlier, earlier ≠ [] ∧
        ⟨.findJob orgId id, .ok (some row)⟩ :: earlier <:+ t
      have hP : ∀ t e, P t → P (e :: t) := fun t e ⟨earlier, hne, hsuf⟩ =>
        ⟨earlier, hne, hsuf.trans (List.suffix_cons e t)⟩
      refine (updateRow_replay hP).bind fun _ => Handler.Triple.bind (Q := fun _ _ => True) ?_
        fun _ => .pure fun _ _ => trivial
      refine Handler.Triple.bind (Q := fun _ => P) (command_triple ?_ (fun t r h => hP t _ h)
        fun _ _ _ => trivial) fun bullJobId => ?_
      · rintro t ⟨earlier, hne, hsuf⟩
        refine ⟨rfl, fun data priority heq => ?_⟩
        cases heq
        exact ⟨rfl, row, earlier, hsuf, hne, not_not.mp hstatus, rfl⟩
      · exact (updateRow_replay hP).conseq (fun _ h => h) (fun _ _ _ => trivial) fun _ _ h => h

end Rules

theorem obeys_admissionRule (deps : Deps) :
    (gateway deps).Obeys AdmissionRule fun _ _ _ _ => True := by
  intro p op
  have hnil : Unchecked [] := ⟨fun _ h => absurd h List.not_mem_nil,
    fun _ h => absurd h List.not_mem_nil⟩
  have hother : (handler deps p.orgId op).run.Follows (fun _ _ => True) (fun _ _ => True) [] :=
    (Program.Triple.of_every (P := fun _ => True) (handler_confined p.orgId deps op)
      (fun _ _ _ _ => trivial) fun _ _ _ _ _ => trivial) [] trivial
  cases op with
  | chat input =>
    refine (Handler.Triple.map (R := fun _ _ => True) some ((chat_budget deps input).conseq
      (fun _ h => h) (fun _ _ _ => trivial) fun _ _ h => h) [] hnil).mono (fun _ _ h => h)
        fun _ _ _ => trivial
  | createJob input =>
    exact (Handler.Triple.map (R := fun _ _ => True) some (createJob_budget deps input) []
      hnil).mono (fun _ _ h => h) fun _ _ _ => trivial
  | replayJob id =>
    exact (Handler.Triple.map (R := fun _ _ => True) some (replayJob_admission id) []
      trivial).mono (fun _ _ h => h) fun _ _ _ => trivial
  | cacheStats | deleteCache | abStats | listJobs | getJob | processJob => exact hother

/-! ## Jobs keep what they are made of -/

section Jobs

variable {s s' : Store} {cmd : Cmd} {env : Env} {orgId : OrgId} {id : Uuid}

/-- The job exists, and its handler calls no provider. -/
def Harmless (env : Env) (orgId : OrgId) (id : Uuid) (s : Store) : Prop :=
  ∃ row, s.jobRow orgId id = some row ∧ row.payload.callsProvider env = false

/-- A change of rows that keeps what they are found by. -/
theorem jobRow_map {f : JobRow → JobRow} (hjobs : s'.jobs = s.jobs.map f)
    (horg : ∀ row, (f row).orgId = row.orgId) (hid : ∀ row, (f row).id = row.id) :
    s'.jobRow orgId id = (s.jobRow orgId id).map f := by
  have hfilter : (fun row : JobRow => decide (row.orgId = orgId)) ∘ f =
      fun row => decide (row.orgId = orgId) := by
    funext row
    simp [horg]
  have hfind : (fun row : JobRow => decide (row.id = id)) ∘ f =
      fun row => decide (row.id = id) := by
    funext row
    simp [hid]
  unfold Store.jobRow Store.jobsOf
  rw [hjobs, List.filter_map, List.find?_map, hfilter, hfind]

theorem Harmless.map {f : JobRow → JobRow} (h : Harmless env orgId id s)
    (hjobs : s'.jobs = s.jobs.map f) (horg : ∀ row, (f row).orgId = row.orgId)
    (hid : ∀ row, (f row).id = row.id) (hpayload : ∀ row, (f row).payload = row.payload) :
    Harmless env orgId id s' := by
  obtain ⟨row, hrow, hcalls⟩ := h
  refine ⟨f row, ?_, (hpayload row).symm ▸ hcalls⟩
  rw [jobRow_map hjobs horg hid, hrow]
  rfl

theorem Harmless.effect (h : Harmless env orgId id s) (he : s.Effect cmd s') :
    Harmless env orgId id s' := by
  have hkept : ∀ update : JobUpdate, ∀ clock row,
      (update.apply clock row).id = row.id ∧ (update.apply clock row).payload = row.payload := by
    intro update clock row
    cases update <;> exact ⟨rfl, rfl⟩
  cases he with
  | createJobRow =>
    obtain ⟨row, hrow, hcalls⟩ := h
    refine ⟨row, ?_, hcalls⟩
    unfold Store.jobRow Store.jobsOf at hrow ⊢
    rw [List.filter_append, List.find?_append, hrow]
    rfl
  | updateJob org jobId update =>
    unfold Store.updateJob
    split
    · exact h
    · refine h.map rfl (fun row => ?_) (fun row => ?_) fun row => ?_
      · split
        · exact update.orgId_apply _ row
        · rfl
      · split
        · exact (hkept update _ row).1
        · rfl
      · split
        · exact (hkept update _ row).2
        · rfl
  | _ => exact h

theorem Harmless.drift {e : Drift} (h : Harmless env orgId id s) (he : drift e s = some s') :
    Harmless env orgId id s' := by
  cases e <;> cases he <;> exact h

end Jobs

/-! ## The runs -/

section Runs

variable {deps : Deps} {orgId : OrgId} {row : OrgRow} {budget : ℚ} {month : ℤ}
  {c₁ c d : GatewayConfig} {a : Action sig Pid Drift Op}

/-- The request compares the spend with the budget. -/
def Op.checks : Op → Bool
  | .chat _ | .createJob _ => true
  | _ => false

theorem budgetRule_of_checks {p : Pid} {op : Op} {t : Transcript sig} {cmd : Cmd}
    (hop : op.checks = true) (h : AdmissionRule p op t cmd) : BudgetRule p.orgId t cmd := by
  cases op with
  | chat | createJob => exact h
  | cacheStats | deleteCache | abStats | listJobs | getJob | replayJob | processJob => cases hop

/-- What the requests of the org have read since `c₁`, and what they have done. -/
structure Barred (env : Env) (orgId : OrgId) (row : OrgRow) (budget : ℚ) (month : ℤ)
    (c₁ c : GatewayConfig) : Prop where
  orgs : ∀ p r, c₁.procs p = none → ⟨p, .findOrganization orgId, .ok r⟩ ∈ c.world.history →
    r = some row
  plans : ∀ p price, c₁.procs p = none →
    ⟨p, .findBillingPlan row.plan, .ok price⟩ ∈ c.world.history →
      row.monthlyBudgetOverrideUsd = none → price = some budget
  flags : ∀ p flags, c₁.procs p = none →
    ⟨p, .redisGet (flagsKey orgId), .ok (some (.flags flags))⟩ ∈ c.world.history →
      flags.billingEnforcement = true
  months : ∀ p now, c₁.procs p = none → ⟨p, .dateNow, .ok now⟩ ∈ c.world.history →
    startOfCurrentMonthUtc now = month
  spends : ∀ p P since spent, c₁.procs p = none → c.procs p = some P → P.op.checks = true →
    ⟨p, .sumUsage orgId since, .ok spent⟩ ∈ c.world.history → budget ≤ spent
  replays : ∀ p P id, c₁.procs p = none → p.orgId = orgId → c.procs p = some P →
    P.op = .replayJob id → ∀ r earlier,
      ⟨.findJob orgId id, .ok (some r)⟩ :: earlier <:+ transcript p c.world.history →
        earlier ≠ [] → r.status = .deadLetter → Harmless env orgId r.id c.world.shared
  admitted : ∀ e ∈ c.world.history, e.pid.orgId = orgId → c₁.procs e.pid = none →
    ∀ P, c.procs e.pid = some P → P.op.isSpending = true → e.cmd.callsProvider = false ∧
      ∀ data priority, e.cmd = .queueAdd data priority →
        Harmless env data.orgId data.jobRecordId c.world.shared

theorem not_mem_of_fresh {p : Pid} {e : GatewayEvent}
    (hconf : System.Conforms AdmissionRule (fun _ _ _ _ => True) c) (hp : c.procs p = none)
    (he : e ∈ c.world.history) : e.pid ≠ p :=
  transcript_eq_nil.mp (hconf.fresh p hp) e he

theorem barred_refl (hconf : System.Conforms AdmissionRule (fun _ _ _ _ => True) c) :
    Barred deps.env orgId row budget month c c where
  orgs p r hp he := absurd rfl (not_mem_of_fresh hconf hp he)
  plans p price hp he := absurd rfl (not_mem_of_fresh hconf hp he)
  flags p flags hp he := absurd rfl (not_mem_of_fresh hconf hp he)
  months p now hp he := absurd rfl (not_mem_of_fresh hconf hp he)
  spends p P since spent hp hP := by
    rw [hp] at hP
    cases hP
  replays p P id hp _ hP := by
    rw [hp] at hP
    cases hP
  admitted e he _ hp := absurd rfl (not_mem_of_fresh hconf hp he)

/-- A request of the org that compares the spend with the budget is not let through. -/
theorem Barred.not_cleared {p : Pid} {P : Proc sig Pid Op Outcome}
    (hi : Barred deps.env orgId row budget month c₁ c)
    (hs : Exhausted orgId row budget month c.world.shared) (hnew : c₁.procs p = none)
    (hP : c.procs p = some P) (hchecks : P.op.checks = true) :
    ¬Cleared orgId (transcript p c.world.history) := by
  rintro (⟨flags, hflags | ⟨r, hr, rfl⟩, hoff⟩ | ⟨b, spent, ⟨r, hr, hb⟩, ⟨since, hspent⟩, hlt⟩)
  · exact Bool.false_ne_true (hoff.symm.trans (hi.flags p flags hnew (mem_transcript.mp hflags)))
  · obtain rfl := hi.orgs p r hnew (mem_transcript.mp hr)
    exact Bool.false_ne_true (hoff.symm.trans hs.enforced)
  · obtain rfl : r = row := Option.some.inj (hi.orgs p _ hnew (mem_transcript.mp hr))
    have hbudget : b = some budget := by
      rcases hb with ⟨rfl, hsome⟩ | ⟨hnone, hplan⟩
      · rcases hs.priced with heq | ⟨hnone, -⟩
        · exact heq
        · rw [hnone] at hsome
          cases hsome
      · exact hi.plans p b hnew (mem_transcript.mp hplan) hnone
    have hle := hi.spends p P since spent hnew hP hchecks (mem_transcript.mp hspent)
    exact absurd (hlt budget hbudget) (not_lt.mpr hle)

/-- A replay that is not paid for finds a job that is not dead, or that calls no provider. -/
theorem harmless_of_findJob {p : Pid} {P : Proc sig Pid Op Outcome} {id : Uuid} {r : JobRow}
    {i : Input} {s : Store} (hp : c.procs p = some P) (horg : p.orgId = orgId)
    (hop : P.op = .replayJob id) (hbefore : ∃ e ∈ c.world.history, e.pid = p)
    (hx : exec deps.similarity p (.findJob orgId id) i c.world.shared = some (.ok (some r), s))
    (hpaid : ¬PaidReplay deps.env orgId c (.command ⟨p, .findJob orgId id, .ok (some r)⟩))
    (hdead : r.status = .deadLetter) : Harmless deps.env orgId r.id s := by
  have hrow : c.world.shared.jobRow orgId id = some r ∧ s = c.world.shared := by
    have hperform := perform_of_exec hx
    simp only [Store.perform, Option.some.injEq, Prod.mk.injEq, Except.ok.injEq] at hperform
    exact ⟨hperform.1, hperform.2.symm⟩
  obtain ⟨hrow, rfl⟩ := hrow
  obtain rfl : r.id = id :=
    of_decide_eq_true (List.find?_some (p := fun row : JobRow => decide (row.id = id)) hrow)
  refine ⟨r, hrow, ?_⟩
  cases hcalls : r.payload.callsProvider deps.env with
  | false => rfl
  | true =>
    refine absurd ⟨horg, ?_, hbefore⟩ hpaid
    obtain ⟨op, since, prog⟩ := P
    cases hop
    simp [Cmd.lookedUp, GatewayConfig.replays, hp, Store.isDeadPaid, hrow, hdead, hcalls]

theorem Barred.start {q : Pid} {op : Op}
    (hconf : System.Conforms AdmissionRule (fun _ _ _ _ => True) c)
    (hi : Barred deps.env orgId row budget month c₁ c) (hq : c.procs q = none) :
    Barred deps.env orgId row budget month c₁
      { c with
        procs := Function.update c.procs q
          (some ⟨op, c.world.history, (gateway deps).code q op⟩) } := by
  have hother : ∀ e ∈ c.world.history, e.pid ≠ q := fun e he => not_mem_of_fresh hconf hq he
  have hprocs : ∀ p P, p ≠ q → Function.update c.procs q
      (some ⟨op, c.world.history, (gateway deps).code q op⟩) p = some P → c.procs p = some P :=
    fun p P hne hP => by rwa [Function.update_of_ne hne] at hP
  refine ⟨hi.orgs, hi.plans, hi.flags, hi.months, fun p P since spent hnew hP hop he => ?_,
    fun p P id hnew horg hP hop r earlier hsuf => ?_, fun e he horg hnew P hP => ?_⟩
  · exact hi.spends p P since spent hnew (hprocs p P (hother _ he) hP) hop he
  · by_cases hpq : p = q
    · subst hpq
      rw [hconf.fresh p hq] at hsuf
      exact absurd (List.suffix_nil.mp hsuf) (List.cons_ne_nil _ _)
    · exact hi.replays p P id hnew horg (hprocs p P hpq hP) hop r earlier hsuf
  · exact hi.admitted e he horg hnew P (hprocs _ P (hother e he) hP)

/-- What a request of the org that may spend does next, in a state that has barred the others. -/
theorem Barred.command_allowed {q : Pid} {Q : Proc sig Pid Op Outcome} {cmd : Cmd}
    (hi : Barred deps.env orgId row budget month c₁ c)
    (hs : Exhausted orgId row budget month c.world.shared) (hnew : c₁.procs q = none)
    (horg : q.orgId = orgId) (hq : c.procs q = some Q) (hop : Q.op.isSpending = true)
    (hrule : AdmissionRule q Q.op (transcript q c.world.history) cmd) :
    cmd.callsProvider = false ∧ ∀ data priority, cmd = .queueAdd data priority →
      Harmless deps.env data.orgId data.jobRecordId c.world.shared := by
  by_cases hchecks : Q.op.checks = true
  · -- not let through, so all it may do is check
    have hrule' := budgetRule_of_checks hchecks hrule
    have hcheck : cmd.isCheck = true := by
      by_contra hnot
      refine hi.not_cleared hs hnew hq hchecks ?_
      exact horg ▸ hrule'.1 (Bool.eq_false_of_not_eq_true hnot)
    obtain ⟨hcalls, hadds⟩ := callsProvider_of_isCheck hcheck
    exact ⟨hcalls, fun data priority heq => absurd heq (hadds data priority)⟩
  · obtain ⟨id, hreplay⟩ : ∃ id, Q.op = .replayJob id := by
      cases hop' : Q.op with
      | replayJob id => exact ⟨id, rfl⟩
      | chat | createJob =>
        rw [hop'] at hchecks
        exact absurd rfl hchecks
      | cacheStats | deleteCache | abStats | listJobs | getJob | processJob =>
        rw [hop'] at hop
        cases hop
    rw [hreplay] at hrule
    refine ⟨hrule.1, fun data priority heq => ?_⟩
    obtain ⟨hdata, r, earlier, hsuf, hne, hdead, hid⟩ := hrule.2 data priority heq
    rw [hdata, ← hid, horg]
    exact hi.replays q Q id hnew horg hq hreplay r earlier (horg ▸ hsuf) hne hdead

theorem barred_step (hconf : System.Conforms AdmissionRule (fun _ _ _ _ => True) c)
    (hi : Barred deps.env orgId row budget month c₁ c)
    (hs : Exhausted orgId row budget month c.world.shared)
    (hpaid : ¬PaidReplay deps.env orgId c a) (hstep : (gateway deps).Steps c a d) :
    Barred deps.env orgId row budget month c₁ d := by
  cases hstep with
  | start hq => exact hi.start hconf hq
  | drift hx =>
    refine ⟨hi.orgs, hi.plans, hi.flags, hi.months, hi.spends,
      fun p P id hnew horg hP hop r earlier hsuf hne hdead => ?_, fun e he horg hnew P hP hop => ?_⟩
    · exact (hi.replays p P id hnew horg hP hop r earlier hsuf hne hdead).drift hx
    · obtain ⟨hcalls, hadds⟩ := hi.admitted e he horg hnew P hP hop
      exact ⟨hcalls, fun data priority heq => (hadds data priority heq).drift hx⟩
  | @command q i Q cmd k r s hq hk hx =>
    have hrule := hconf.allowed hq hk
    have heffect : c.world.shared.Effect cmd s := effect_of_exec (p := q) hx
    have hops : ∀ p P, Function.update c.procs q (some { Q with prog := k r }) p = some P →
        ∃ P', c.procs p = some P' ∧ P'.op = P.op := fun p P hP => ops_command hq hP
    refine ⟨fun p r' hnew he => ?_, fun p price hnew he hnone => ?_, fun p flags hnew he => ?_,
      fun p now hnew he => ?_, fun p P since spent hnew hP hop he => ?_,
      fun p P id hnew horg hP hop r' earlier hsuf hne hdead => ?_,
      fun e he horg hnew P hP hop => ?_⟩
    · rcases List.mem_cons.mp he with heq | hold
      · cases heq
        cases perform_of_exec (p := q) hx
        exact hs.org
      · exact hi.orgs p r' hnew hold
    · rcases List.mem_cons.mp he with heq | hold
      · cases heq
        cases perform_of_exec (p := q) hx
        rcases hs.priced with hsome | ⟨-, hprice⟩
        · rw [hnone] at hsome
          cases hsome
        · exact hprice
      · exact hi.plans p price hnew hold hnone
    · rcases List.mem_cons.mp he with heq | hold
      · cases heq
        rw [hs.cache flags (value_of_redisGet (p := q) hx)]
        exact hs.enforced
      · exact hi.flags p flags hnew hold
    · rcases List.mem_cons.mp he with heq | hold
      · cases heq
        cases perform_of_exec (p := q) hx
        exact hs.current
      · exact hi.months p now hnew hold
    · obtain ⟨P', hP', hop'⟩ := hops p P hP
      rcases List.mem_cons.mp he with heq | hold
      · cases heq
        obtain rfl : P' = Q := Option.some.inj (hP'.symm.trans hq)
        obtain ⟨now, hnow, rfl⟩ := (budgetRule_of_checks (hop' ▸ hop) hrule).2.2.2
        rw [hi.months _ now hnew (mem_transcript.mp hnow)] at hx
        cases perform_of_exec (p := q) hx
        exact hs.spent
      · exact hi.spends p P' since spent hnew hP' (hop' ▸ hop) hold
    · obtain ⟨P', hP', hop'⟩ := hops p P hP
      rw [World.after_history] at hsuf
      by_cases hpq : q = p
      · subst hpq
        rw [transcript_cons_self, List.suffix_cons_iff] at hsuf
        rcases hsuf with heq | hold
        · -- the look-up is this step, and the replay has done something before
          cases heq
          obtain rfl : P' = Q := Option.some.inj (hP'.symm.trans hq)
          obtain ⟨x, hx'⟩ := List.exists_mem_of_ne_nil _ hne
          exact harmless_of_findJob hq horg (hop' ▸ hop) ⟨_, mem_transcript.mp hx', rfl⟩ hx hpaid
            hdead
        · exact (hi.replays q P' id hnew horg hP' (hop' ▸ hop) r' earlier hold hne hdead).effect
            heffect
      · rw [transcript_cons_of_ne hpq] at hsuf
        exact (hi.replays p P' id hnew horg hP' (hop' ▸ hop) r' earlier hsuf hne hdead).effect
          heffect
    · obtain ⟨P', hP', hop'⟩ := hops _ P hP
      have hold : e.cmd.callsProvider = false ∧ ∀ data priority, e.cmd = .queueAdd data priority →
          Harmless deps.env data.orgId data.jobRecordId c.world.shared := by
        rcases List.mem_cons.mp he with rfl | hold
        · obtain rfl : P' = Q := Option.some.inj (hP'.symm.trans hq)
          exact hi.command_allowed hs hnew horg hq (hop' ▸ hop) hrule
        · exact hi.admitted e hold horg hnew P' hP' (hop' ▸ hop)
      exact ⟨hold.1, fun data priority heq => (hold.2 data priority heq).effect heffect⟩

end Runs

/-- In every run in which the budget of an org stays exhausted, no request of the org that is
started in it calls a provider or enqueues a job that will, unless it is a replay of such a job. -/
theorem admitsNothing_of_exhausted (deps : Deps) (orgId : OrgId) (row : OrgRow) (budget : ℚ)
    (month : ℤ) (s : Store) (before after : List GatewayLabel) (c₁ c : GatewayConfig)
    (hbefore : (gateway deps).run (.init s) before = some c₁)
    (hafter : (gateway deps).run c₁ after = some c)
    (hal : (gateway deps).Along (fun c a => Exhausted orgId row budget month c.world.shared ∧
      ¬PaidReplay deps.env orgId c a) c₁ after) : AdmitsNothing deps.env orgId c₁ c := by
  have hobeys := obeys_admissionRule deps
  have hconf := System.conforms_run hobeys hbefore
  have hbarred : Barred deps.env orgId row budget month c₁ c :=
    System.invariant_run hobeys (fun _ _ _ hc hi ha hst => barred_step hc hi ha.1 ha.2 hst) hconf
      (barred_refl hconf) hafter hal
  intro e he horg hnew P hP hop
  obtain ⟨hcalls, hadds⟩ := hbarred.admitted e he horg hnew P hP hop
  refine ⟨hcalls, fun data priority heq r hr => ?_⟩
  obtain ⟨r', hr', hharmless⟩ := hadds data priority heq
  obtain rfl : r = r' := Option.some.inj (hr.symm.trans hr')
  exact hharmless

/-! ### A job that has spent the budget -/

section Decidable

variable {env : Env} {orgId : OrgId} {row : OrgRow} {budget : ℚ} {month : ℤ} {s : Store}

/-- The cached flags, if there are any, are those of the row. -/
theorem cached_iff (key : String) (flags : OrgFeatureFlags) :
    ((s.value key).all fun
      | .flags f => decide (f = flags)
      | _ => true) = true ↔ ∀ f, s.value key = some (.flags f) → f = flags := by
  cases s.value key with
  | none => simp
  | some v => cases v <;> simp

instance : Decidable (Exhausted orgId row budget month s) :=
  decidable_of_iff (s.organizations orgId = some row ∧
    row.featureFlags.billingEnforcement = true ∧
    (row.monthlyBudgetOverrideUsd = some budget ∨
      row.monthlyBudgetOverrideUsd = none ∧ s.billingPlans row.plan = some budget) ∧
    startOfCurrentMonthUtc s.clock = month ∧ budget ≤ recordedSpend orgId month s ∧
    ((s.value (flagsKey orgId)).all fun
      | .flags f => decide (f = row.featureFlags)
      | _ => true) = true)
    ⟨fun ⟨h₁, h₂, h₃, h₄, h₅, h₆⟩ => ⟨h₁, h₂, h₃, h₄, h₅, (cached_iff _ _).mp h₆⟩,
      fun h => ⟨h.org, h.enforced, h.priced, h.current, h.spent, (cached_iff _ _).mpr h.cache⟩⟩

instance (c : GatewayConfig) (a : Action sig Pid Drift Op) : Decidable (PaidReplay env orgId c a) :=
  match a with
  | .start .. => isFalse id
  | .command _ => inferInstanceAs (Decidable (_ ∧ _ ∧ _))
  | .drift _ => isFalse id

end Decidable

/-- The row of the tenant that enforces its budget. -/
def enforcingRow : OrgRow :=
  ⟨"free", none, { OrgFeatureFlags.defaults with billingEnforcement := true }⟩

/-- One of two requests has recorded its usage, which is the whole budget. The other one still
records its own, and a third one is refused. -/
theorem admitsNothing_of_exhausted_third :
    ∃ c₁ c,
      (gateway plainDeps).run (.init (.fresh enforcing smallPlans))
        (overlapping ++ steps ⟨tenantA, 0⟩ [.nothing]) = some c₁ ∧
      (gateway plainDeps).run c₁ overspent = some c ∧
      (c.procs ⟨tenantA, 2⟩).isSome = true ∧
      AdmitsNothing plainDeps.env tenantA c₁ c := by
  have hrun : ((gateway plainDeps).run (.init (.fresh enforcing smallPlans))
      (overlapping ++ steps ⟨tenantA, 0⟩ [.nothing])).bind (fun c₁ =>
        ((gateway plainDeps).run c₁ overspent).map fun c => decide (
          (c.procs ⟨tenantA, 2⟩).isSome = true ∧
          (gateway plainDeps).Along (fun c a =>
            Exhausted tenantA enforcingRow smallBudget 0 c.world.shared ∧
              ¬PaidReplay plainDeps.env tenantA c a) c₁ overspent)) = some true := by
    decide +kernel
  obtain ⟨c₁, h₁, hrun⟩ := Option.bind_eq_some_iff.mp hrun
  obtain ⟨c, h, hrun⟩ := Option.map_eq_some_iff.mp hrun
  obtain ⟨hthird, hal⟩ := of_decide_eq_true hrun
  exact ⟨c₁, c, h₁, h, hthird, admitsNothing_of_exhausted plainDeps tenantA enforcingRow
    smallBudget 0 _ _ overspent c₁ c h₁ h hal⟩

def longJobId : Uuid := ⟨"00000000-0000-0000-0000-00000000000d", by decide⟩

/-- Two prompts, of which the first one costs the whole budget. -/
def longJob : CreateJobInput := ⟨tenantB, .bulkChat "gpt-4o-mini" ["a", "b"], none⟩

def outage : Except Thrown ChatResponse := .error (.app (providerError "overloaded" "openai"))

/-- An attempt whose first call fails. -/
def failedAttempt (n : ℕ) : List GatewayLabel :=
  .start ⟨tenantA, n⟩ .processJob ::
    steps ⟨tenantA, n⟩ [.index 0, .nothing, .nothing, .nothing, .chat outage, .nothing, .nothing,
      .nothing]

/-- The job is admitted while there is budget left, spends it, and dies. -/
def spentAndDead : List GatewayLabel :=
  (.start ⟨tenantA, 0⟩ (.createJob longJob) : GatewayLabel) ::
    steps ⟨tenantA, 0⟩ ([Choice.nothing, .nothing, .nothing] ++ checking tenantB ++
      [Choice.nothing, .id longJobId, .nothing, .nothing]) ++
  (.start ⟨tenantA, 1⟩ .processJob : GatewayLabel) ::
    steps ⟨tenantA, 1⟩ [.index 0, .nothing, .nothing, .nothing, .chat (.ok (greeted "chatcmpl-1")),
      .nothing, .nothing, .nothing, .chat outage, .nothing, .nothing, .nothing] ++
  failedAttempt 2 ++ failedAttempt 3

/-- The job is replayed, and a worker takes it. -/
def replayed : List GatewayLabel :=
  .start ⟨tenantA, 4⟩ (.replayJob longJobId) ::
    steps ⟨tenantA, 4⟩ [.nothing, .nothing, .nothing, .nothing, .nothing] ++
  .start ⟨tenantA, 5⟩ .processJob ::
    steps ⟨tenantA, 5⟩ [.index 0, .nothing, .nothing, .nothing, .chat (.ok (greeted "chatcmpl-2"))]

/-- A replay is accepted although the budget is exhausted, and the provider is called. -/
theorem admitsNothing_fails :
    ∃ c₁ c,
      (gateway plainDeps).run (.init (.fresh enforcing smallPlans)) spentAndDead = some c₁ ∧
      (gateway plainDeps).run c₁ replayed = some c ∧
      (gateway plainDeps).Along (fun c _ =>
        Exhausted tenantA enforcingRow smallBudget 0 c.world.shared) c₁ replayed ∧
      (∃ e ∈ c.world.history, e.pid = ⟨tenantA, 5⟩ ∧ e.cmd.callsProvider = true) ∧
      ¬AdmitsNothing plainDeps.env tenantA c₁ c := by
  have hrun : ((gateway plainDeps).run (.init (.fresh enforcing smallPlans)) spentAndDead).bind
      (fun c₁ => ((gateway plainDeps).run c₁ replayed).map fun c => decide (
        (gateway plainDeps).Along (fun c _ =>
          Exhausted tenantA enforcingRow smallBudget 0 c.world.shared) c₁ replayed ∧
        (∃ e ∈ c.world.history, e.pid = ⟨tenantA, 5⟩ ∧ e.cmd.callsProvider = true) ∧
        (∃ e ∈ c.world.history, e.pid = ⟨tenantA, 4⟩ ∧
          e.cmd = .queueAdd ⟨longJobId, tenantA, "bulk_chat"⟩ 10) ∧
        ((c.world.shared.jobRow tenantA longJobId).any fun row =>
          row.payload.callsProvider plainDeps.env) = true ∧
        (c₁.procs ⟨tenantA, 4⟩).isNone = true ∧
        ((c.procs ⟨tenantA, 4⟩).any fun P => P.op.isSpending) = true)) = some true := by
    decide +kernel
  obtain ⟨c₁, h₁, hrun⟩ := Option.bind_eq_some_iff.mp hrun
  obtain ⟨c, h, hrun⟩ := Option.map_eq_some_iff.mp hrun
  obtain ⟨hal, hcalled, ⟨e, he, hpid, hcmd⟩, hrow, hnew, hop⟩ := of_decide_eq_true hrun
  refine ⟨c₁, c, h₁, h, hal, hcalled, fun hnothing => ?_⟩
  obtain ⟨P, hP, hspending⟩ := (Option.any_eq_true _ _).mp hop
  obtain ⟨row, hrow, hcalls⟩ := (Option.any_eq_true _ _).mp hrow
  have hadds := (hnothing e he (by rw [hpid])
    (by rw [hpid]; exact Option.isNone_iff_eq_none.mp hnew)
    P (by rw [hpid]; exact hP) hspending).2 _ _ hcmd row hrow
  exact Bool.false_ne_true (hadds.symm.trans hcalls)

end CloudMesh.Gateway
