import CloudMesh.Gateway.Billing
import Mathlib.Algebra.BigOperators.Group.Finset.Piecewise
import Mathlib.Algebra.Order.BigOperators.Group.Finset

/-!
# Budgets

A request of an org that enforces its budget reads what the org has spent, and is let through if
that is below the budget; what it costs is added when it has been served. The lock covers the read
only, so that requests overlap: the rule below says what each of them has read when it goes on, and
the bound on what they spend together is proved from it for all interleavings.

## Main definitions

- `BudgetRule` — what a request has read when it goes on
- `recordedSpend`, `inFlight`, `costOf` — what a budget is compared with, and what is still to come
- `Steady` — one org, one budget and one month
- `overshoot_bounded` — who is let through, and how far the spend can get
-/

namespace CloudMesh.Gateway

open Concurrent

/-! ## The rule -/

/-- The commands with which a request checks whether it may go on. -/
def Cmd.isCheck : Cmd → Bool
  | .dateNow | .sleep _ | .randomUUID | .redisGet _ | .redisSet _ (.flags _) _
  | .redisSetNx _ (.text _) _ | .evalRelease .. | .findOrganization _ | .findBillingPlan _
  | .sumUsage .. | .writeOutboxEvent (.budgetExceeded ..) => true
  | _ => false

def Cmd.readsSpend : Cmd → Bool
  | .sumUsage .. => true
  | _ => false

def Cmd.recordsUsage : Cmd → Bool
  | .insertUsage .. => true
  | _ => false

def Unread (t : Transcript sig) : Prop := ∀ e ∈ t, e.1.readsSpend = false

def Unbilled (t : Transcript sig) : Prop := ∀ e ∈ t, e.1.recordsUsage = false

/-- The flags of the org, from the cache or from its row. -/
def FlagsRead (orgId : OrgId) (flags : OrgFeatureFlags) (t : Transcript sig) : Prop :=
  ⟨.redisGet (flagsKey orgId), .ok (some (.flags flags))⟩ ∈ t ∨
    ∃ row, ⟨.findOrganization orgId, .ok row⟩ ∈ t ∧
      flags = (row.map OrgRow.featureFlags).getD .defaults

/-- The budget of the org, from its row or from its plan. -/
def BudgetRead (orgId : OrgId) (budget : Option ℚ) (t : Transcript sig) : Prop :=
  ∃ row, ⟨.findOrganization orgId, .ok (some row)⟩ ∈ t ∧
    (budget = row.monthlyBudgetOverrideUsd ∧ budget.isSome = true ∨
      row.monthlyBudgetOverrideUsd = none ∧ ⟨.findBillingPlan row.plan, .ok budget⟩ ∈ t)

def SpendRead (orgId : OrgId) (spent : ℚ) (t : Transcript sig) : Prop :=
  ∃ since, ⟨.sumUsage orgId since, .ok spent⟩ ∈ t

/-- The spend that has been read is below the budget, if there is one. -/
def WithinBudget (orgId : OrgId) (t : Transcript sig) : Prop :=
  ∃ budget spent, BudgetRead orgId budget t ∧ SpendRead orgId spent t ∧
    ∀ b, budget = some b → spent < b

/-- The request may go on: the org does not enforce its budget, or there is some left. -/
def Cleared (orgId : OrgId) (t : Transcript sig) : Prop :=
  (∃ flags, FlagsRead orgId flags t ∧ flags.billingEnforcement = false) ∨ WithinBudget orgId t

/-- What a request has read when it issues a command. -/
def BudgetRule (orgId : OrgId) (t : Transcript sig) (c : Cmd) : Prop :=
  (c.isCheck = false → Cleared orgId t) ∧
    match c with
    | .sumUsage id since => id = orgId ∧ Unread t ∧
      ∃ now, ⟨.dateNow, .ok now⟩ ∈ t ∧ since = startOfCurrentMonthUtc now
    | .insertUsage params costUsd =>
      params.orgId = orgId ∧ Unbilled t ∧ ∀ cost, costUsd = some cost → 0 ≤ cost
    | .redisSet key (.flags flags) _ => key = flagsKey orgId ∧
      ∃ row, ⟨.findOrganization orgId, .ok row⟩ ∈ t ∧
        flags = (row.map OrgRow.featureFlags).getD .defaults
    | .redisSetNx _ (.flags _) _ => False
    | _ => True

def ChatBudgetRule (p : Pid) : Op → Transcript sig → Cmd → Prop
  | .chat _, t, c => BudgetRule p.orgId t c
  | _, _, _ => True

/-- A request that has been answered was let through, or it is a replay. -/
def ChatBudgetEnded (p : Pid) : Op → Outcome → Transcript sig → Prop
  | .chat _, .ok _, t => Cleared p.orgId t ∨ Unread t
  | _, _, _ => True

/-! ## Following the code -/

theorem computeCostUsd_nonneg {model : String} {usage : Usage} {cost : ℚ}
    (h : computeCostUsd model usage = some cost) : 0 ≤ cost := by
  obtain ⟨pricing, hpricing, rfl⟩ := Option.map_eq_some_iff.mp h
  obtain ⟨hinput, houtput⟩ := getModelPricing_nonneg hpricing
  have hround : 0 ≤ mathRound
      (((usage.promptTokens : ℚ) / 1000000 * pricing.inputPerMillion +
        (usage.completionTokens : ℚ) / 1000000 * pricing.outputPerMillion) * 1000000) :=
    mathRound_nonneg (by positivity)
  exact div_nonneg (Int.cast_nonneg hround) (by norm_num)

section Triples

variable {orgId : OrgId} {α : Type} {P : Transcript sig → Prop}

/-- Only accounting touches the condition. -/
def Lasting (P : Transcript sig → Prop) : Prop :=
  ∀ t c r, P t → c.isAccounting = false → P (⟨c, r⟩ :: t)

theorem lasting_mem (e : Exchange sig) : Lasting fun t => e ∈ t :=
  fun _ _ _ h _ => List.mem_cons_of_mem _ h

theorem Lasting.and {P Q : Transcript sig → Prop} (hP : Lasting P) (hQ : Lasting Q) :
    Lasting fun t => P t ∧ Q t :=
  fun t c r h hc => ⟨hP t c r h.1 hc, hQ t c r h.2 hc⟩

theorem FlagsRead.cons {flags : OrgFeatureFlags} {t : Transcript sig}
    (h : FlagsRead orgId flags t) (e : Exchange sig) : FlagsRead orgId flags (e :: t) := by
  rcases h with h | ⟨row, h, heq⟩
  · exact .inl (List.mem_cons_of_mem _ h)
  · exact .inr ⟨row, List.mem_cons_of_mem _ h, heq⟩

theorem BudgetRead.cons {budget : Option ℚ} {t : Transcript sig}
    (h : BudgetRead orgId budget t) (e : Exchange sig) : BudgetRead orgId budget (e :: t) := by
  obtain ⟨row, hrow, h | ⟨hnone, hplan⟩⟩ := h
  · exact ⟨row, List.mem_cons_of_mem _ hrow, .inl h⟩
  · exact ⟨row, List.mem_cons_of_mem _ hrow, .inr ⟨hnone, List.mem_cons_of_mem _ hplan⟩⟩

theorem WithinBudget.cons {t : Transcript sig} (h : WithinBudget orgId t) (e : Exchange sig) :
    WithinBudget orgId (e :: t) := by
  obtain ⟨budget, spent, hbudget, ⟨since, hspent⟩, hlt⟩ := h
  exact ⟨budget, spent, hbudget.cons e, ⟨since, List.mem_cons_of_mem _ hspent⟩, hlt⟩

theorem Cleared.cons {t : Transcript sig} (h : Cleared orgId t) (e : Exchange sig) :
    Cleared orgId (e :: t) := by
  rcases h with ⟨flags, hflags, hoff⟩ | h
  · exact .inl ⟨flags, hflags.cons e, hoff⟩
  · exact .inr (h.cons e)

theorem readsSpend_of_isAccounting {c : Cmd} (h : c.isAccounting = false) :
    c.readsSpend = false := by
  cases c <;> first | rfl | cases h

theorem recordsUsage_of_isAccounting {c : Cmd} (h : c.isAccounting = false) :
    c.recordsUsage = false := by
  cases c <;> first | rfl | cases h

theorem Unread.cons {c : Cmd} {r : sig.Ans c} {t : Transcript sig} (h : Unread t)
    (hc : c.readsSpend = false) : Unread (⟨c, r⟩ :: t) := by
  intro e he
  rcases List.mem_cons.mp he with rfl | he
  · exact hc
  · exact h e he

theorem Unbilled.cons {c : Cmd} {r : sig.Ans c} {t : Transcript sig} (h : Unbilled t)
    (hc : c.recordsUsage = false) : Unbilled (⟨c, r⟩ :: t) := by
  intro e he
  rcases List.mem_cons.mp he with rfl | he
  · exact hc
  · exact h e he

theorem lasting_unread : Lasting Unread := fun _ _ _ h hc => h.cons (readsSpend_of_isAccounting hc)

theorem lasting_unbilled : Lasting Unbilled :=
  fun _ _ _ h hc => h.cons (recordsUsage_of_isAccounting hc)

theorem lasting_cleared : Lasting (Cleared orgId) := fun _ _ _ h _ => h.cons _

theorem budgetRule_of_isAccounting {c : Cmd} {t : Transcript sig} (hc : c.isAccounting = false)
    (h : c.isCheck = false → Cleared orgId t) : BudgetRule orgId t c := by
  refine ⟨h, ?_⟩
  split <;> trivial

/-- One command of a check, with its answer. -/
theorem ask_triple {c : Cmd} (hcheck : c.isCheck = true) (hc : c.isAccounting = false)
    (hP : Lasting P) : Handler.Triple (BudgetRule orgId) P (command c)
      (fun r t => P t ∧ ⟨c, .ok r⟩ ∈ t) fun _ _ => True :=
  command_triple (fun _ _ => budgetRule_of_isAccounting hc fun h => nomatch hcheck.symm.trans h)
    (fun t _ ht => ⟨hP t c _ ht hc, List.mem_cons_self⟩) fun _ _ _ => trivial

/-- One command of a check. -/
theorem check_triple {c : Cmd} (hcheck : c.isCheck = true) (hc : c.isAccounting = false)
    (hP : Lasting P) :
    Handler.Triple (BudgetRule orgId) P (command c) (fun _ => P) fun _ _ => True :=
  (ask_triple hcheck hc hP).conseq (fun _ h => h) (fun _ _ h => h.1) fun _ _ h => h

/-! ### The check -/

/-- Nothing that bears on the budget has happened. -/
def Unchecked (t : Transcript sig) : Prop := Unread t ∧ Unbilled t

theorem lasting_unchecked : Lasting Unchecked := lasting_unread.and lasting_unbilled

theorem getOrgFeatureFlags_triple : Handler.Triple (BudgetRule orgId) Unchecked
    (getOrgFeatureFlags orgId) (fun flags t => Unchecked t ∧ FlagsRead orgId flags t)
    fun _ _ => True := by
  refine Handler.Triple.bind (Q := fun cached t =>
    Unchecked t ∧ ∀ flags, cached = some flags → FlagsRead orgId flags t) ?_ fun cached => ?_
  · refine (ask_triple rfl rfl lasting_unchecked).bind fun cached => ?_
    cases cached with
    | none => exact .pure fun _ h => ⟨h.1, fun _ heq => by cases heq⟩
    | some value =>
      cases value with
      | flags flags =>
        refine .pure fun t h => ⟨h.1, fun flags' heq => ?_⟩
        cases heq
        exact .inl h.2
      | text | count | record | processing | response => exact .throw fun _ _ => trivial
  cases cached with
  | some flags => exact .pure fun _ h => ⟨h.1, h.2 flags rfl⟩
  | none =>
    refine ((ask_triple rfl rfl lasting_unchecked).conseq (fun _ h => h.1) (fun _ _ h => h)
      fun _ _ h => h).bind fun org => ?_
    refine Handler.Triple.bind (command_triple (fun t h => ?_) (fun t _ h => ?_)
      fun _ _ _ => trivial) fun _ => .pure fun _ h => h
    · exact ⟨fun hcheck => (by cases hcheck), rfl, org, h.2, rfl⟩
    · exact ⟨⟨h.1.1.cons rfl, h.1.2.cons rfl⟩, .inr ⟨org, List.mem_cons_of_mem _ h.2, rfl⟩⟩

/-- What the status of a budget is made of. -/
def StatusRead (orgId : OrgId) (status : BudgetStatus) (t : Transcript sig) : Prop :=
  ∃ budget, BudgetRead orgId budget t ∧ SpendRead orgId status.spentUsd t ∧
    status.remainingUsd = budget.map fun b => b - status.spentUsd

theorem getBudgetStatus_triple : Handler.Triple (BudgetRule orgId) Unchecked
    (getBudgetStatus orgId) (fun status t => Unbilled t ∧ StatusRead orgId status t)
    fun _ _ => True := by
  refine (ask_triple rfl rfl lasting_unchecked).bind fun now => ?_
  have hnow := lasting_unchecked.and (lasting_mem ⟨.dateNow, .ok now⟩)
  refine (ask_triple rfl rfl hnow).bind fun org => ?_
  cases org with
  | none => exact .throw fun _ _ => trivial
  | some org =>
    refine Handler.Triple.bind (Q := fun budget t =>
      (Unchecked t ∧ ⟨.dateNow, .ok now⟩ ∈ t) ∧ BudgetRead orgId budget t) ?_ fun budget => ?_
    · cases hoverride : org.monthlyBudgetOverrideUsd with
      | some override =>
        exact .pure fun _ h => ⟨h.1, org, h.2, .inl ⟨hoverride.symm, rfl⟩⟩
      | none =>
        exact (ask_triple rfl rfl (hnow.and (lasting_mem _))).conseq (fun _ h => h)
          (fun _ _ h => ⟨h.1.1, org, h.1.2, .inr ⟨hoverride, h.2⟩⟩) fun _ _ h => h
    refine Handler.Triple.bind (Q := fun spent t => Unbilled t ∧ BudgetRead orgId budget t ∧
      SpendRead orgId spent t) (command_triple (fun t h => ?_) (fun t spent h => ?_)
        fun _ _ _ => trivial) fun spent => ?_
    · exact ⟨fun hcheck => (by cases hcheck), rfl, h.1.1.1, now, h.1.2, rfl⟩
    · exact ⟨h.1.1.2.cons rfl, h.2.cons _, _, List.mem_cons_self⟩
    · cases budget with
      | none => exact .pure fun _ h => ⟨h.1, none, h.2.1, h.2.2, rfl⟩
      | some budget => exact .pure fun _ h => ⟨h.1, some budget, h.2.1, h.2.2, rfl⟩

section Lock

variable {key token : String} {ttlMs : ℕ+} {fn otherwise : Prog α}
  {Q : α → Transcript sig → Prop} (hP : Lasting P) (hQ : ∀ a, Lasting (Q a))
  (hfn : Handler.Triple (BudgetRule orgId) P fn Q fun _ _ => True)

include hP hQ hfn

theorem lockAttempt_triple
    (hother : Handler.Triple (BudgetRule orgId) P otherwise Q fun _ _ => True) :
    Handler.Triple (BudgetRule orgId) P
      (Lock.lockAttempt lockRedis key token ttlMs fn otherwise) Q
      fun _ _ => True := by
  refine (check_triple rfl rfl hP).bind fun acquired => ?_
  cases acquired with
  | false => exact hother
  | true =>
    refine (settle_triple hfn).bind fun result => ?_
    cases result with
    | ok a =>
      exact (check_triple rfl rfl (hQ a)).bind fun _ => .pure fun _ h => h
    | error err =>
      exact (check_triple rfl rfl fun _ _ _ _ _ => trivial).bind
        fun _ => .throw fun _ _ => trivial

theorem lockFrom_triple (opts : Lock.DistributedLockOptions) (retries : ℕ) :
    Handler.Triple (BudgetRule orgId) P
      (Lock.lockFrom lockRedis key token opts fn (.lockAcquisition key) retries) Q
      fun _ _ => True := by
  induction retries with
  | zero => exact lockAttempt_triple hP hQ hfn (.throw fun _ _ => trivial)
  | succ retries ih =>
    exact lockAttempt_triple hP hQ hfn ((check_triple rfl rfl hP).bind fun _ => ih)

end Lock

theorem enforceBudget_triple (env : Env) : Handler.Triple (BudgetRule orgId) Unchecked
    (enforceBudget env orgId) (fun _ t => WithinBudget orgId t ∧ Unbilled t) fun _ _ => True := by
  refine (check_triple rfl rfl lasting_unchecked).bind fun now => ?_
  refine (check_triple rfl rfl lasting_unchecked).bind fun token => ?_
  refine lockFrom_triple lasting_unchecked
    (fun _ t c r h hc => ⟨h.1.cons _, lasting_unbilled t c r h.2 hc⟩) ?_ _ _
  refine getBudgetStatus_triple.bind fun status => ?_
  -- the request goes on if something remains, or if there is no budget
  cases hremaining : status.remainingUsd with
  | none =>
    refine .pure fun t h => ⟨?_, h.1⟩
    obtain ⟨budget, hbudget, hspent, heq⟩ := h.2
    refine ⟨budget, _, hbudget, hspent, ?_⟩
    rintro b rfl
    exact nomatch hremaining.symm.trans heq
  | some remainingUsd =>
    dsimp only
    split
    · have hevent : Handler.Triple (BudgetRule orgId) (fun _ => True)
          (command (.writeOutboxEvent (.budgetExceeded orgId status.spentUsd status.budgetUsd
            remainingUsd))) (fun _ _ => True) fun _ _ => True :=
        check_triple rfl rfl fun _ _ _ _ _ => trivial
      exact (hevent.conseq (fun _ _ => trivial) (fun _ _ h => h) fun _ _ h => h).bind
        fun _ => .throw fun _ _ => trivial
    · rename_i hleft
      refine .pure fun t h => ⟨?_, h.1⟩
      obtain ⟨budget, hbudget, hspent, heq⟩ := h.2
      refine ⟨budget, _, hbudget, hspent, ?_⟩
      rintro b rfl
      have hb : remainingUsd = b - status.spentUsd :=
        Option.some.inj (hremaining.symm.trans heq)
      linarith

/-! ### What follows the check -/

/-- The request may go on, and has not been billed. -/
def Proceeding (orgId : OrgId) (t : Transcript sig) : Prop := Cleared orgId t ∧ Unbilled t

theorem lasting_proceeding : Lasting (Proceeding orgId) := lasting_cleared.and lasting_unbilled

theorem serving_triple {x : Prog α} (hx : Handler.Every (Serving orgId) x) (hP : Lasting P)
    (hcleared : ∀ t, P t → Cleared orgId t) :
    Handler.Triple (BudgetRule orgId) P x (fun _ => P) fun _ => P :=
  .of_every hx (fun t _ h hc => budgetRule_of_isAccounting hc.2 fun _ => hcleared t h)
    fun t c r h hc => hP t c r h hc.2

theorem routeRequest_triple (deps : Deps) (input : ChatInput) :
    Handler.Triple (BudgetRule orgId) Unchecked (routeRequest deps orgId input)
      (fun _ => Proceeding orgId) fun _ _ => True := by
  have hrest : ∀ {β : Type} {x : Prog β}, Handler.Every (Ordinary orgId) x →
      Handler.Triple (BudgetRule orgId) (Proceeding orgId) x (fun _ => Proceeding orgId)
        fun _ _ => True := fun hx =>
    (serving_triple (Ordinary.serving orgId hx) lasting_proceeding fun _ h => h.1).conseq
      (fun _ h => h) (fun _ _ h => h) fun _ _ _ => trivial
  refine getOrgFeatureFlags_triple.bind fun flags => ?_
  refine Handler.Triple.bind (Q := fun _ => Proceeding orgId) ?_ fun budgetStatus => ?_
  · split
    · exact ((enforceBudget_triple deps.env).conseq (fun _ h => h.1)
        (fun _ _ h => ⟨.inr h.1, h.2⟩) fun _ _ h => h).bind fun _ => .pure fun _ h => h
    · rename_i hoff
      exact .pure fun t h => ⟨.inl ⟨flags, h.2, Bool.eq_false_of_not_eq_true hoff⟩, h.1.2⟩
  refine (hrest (resolveModelWithFallback_ordinary orgId _ _ _ _ _)).bind fun decision => ?_
  refine Handler.Triple.bind (Q := fun _ => Proceeding orgId) ?_ fun _ =>
    Handler.Triple.bind (Q := fun _ => Proceeding orgId) ?_ fun _ => .pure fun _ h => h
  · split
    · exact hrest ((every_command ⟨⟨keyOf_abCountKey orgId _, rfl⟩, rfl⟩).bind
        fun _ => Handler.every_pure _)
    · exact .pure fun _ h => h
  · split
    · exact hrest (maybePublishBudgetWarning_ordinary orgId _)
    · exact .pure fun _ h => h

section Routed

variable (deps : Deps) (input : ChatInput) (r : Routed)

theorem recordUsage_budget (response : ChatResponse) :
    Handler.Triple (BudgetRule orgId) (Proceeding orgId)
      (recordUsageAndOutbox (usageParams orgId input r response)) (fun _ => Cleared orgId)
      fun _ _ => True :=
  command_triple (fun _ h => ⟨fun _ => h.1, rfl, h.2, fun _ => computeCostUsd_nonneg⟩)
    (fun _ _ h => h.1.cons _) fun _ _ _ => trivial

theorem storeReplay_budget (response : ChatResponse) :
    Handler.Triple (BudgetRule orgId) (Cleared orgId) (storeReplay deps orgId input response)
      (fun _ => Cleared orgId) fun _ _ => True :=
  (serving_triple (storeReplay_serving orgId deps input response) lasting_cleared
    fun _ h => h).conseq (fun _ h => h) (fun _ _ h => h) fun _ _ _ => trivial

theorem completeChat_budget : Handler.Triple (BudgetRule orgId) (Proceeding orgId)
    (completeChat deps orgId input r) (fun _ => Cleared orgId) fun _ _ => True := by
  have hanswer := serving_triple (answerChat_serving orgId deps input r) lasting_proceeding
    fun _ h => h.1
  refine (settle_triple hanswer).bind fun answer => ?_
  rcases answer with err | ⟨response, fromCache⟩
  · dsimp only
    split
    · exact .throw fun _ _ => trivial
    · have hemit : ∀ provider reason, Handler.Triple (BudgetRule orgId) (Proceeding orgId)
          (emitProviderDegradedEvent orgId provider reason) (fun _ => Proceeding orgId)
          fun _ => Proceeding orgId := fun provider reason =>
        serving_triple (Ordinary.serving orgId (emitProviderDegradedEvent_ordinary orgId _ _))
          lasting_proceeding fun _ h => h.1
      exact ((hemit _ _).conseq (fun _ h => h) (fun _ _ h => h.1) fun _ _ _ => trivial).bind
        fun _ => .pure fun _ h => h
  · refine Handler.Triple.bind (Q := fun _ => Cleared orgId) ?_ fun _ =>
      (storeReplay_budget deps input response).bind fun _ => .pure fun _ h => h
    cases fromCache with
    | true => exact .pure fun _ h => h.1
    | false => exact (recordUsage_budget input r response).bind fun _ => .pure fun _ h => h

theorem streamChat_budget : Handler.Triple (BudgetRule orgId) (Proceeding orgId)
    (streamChat deps orgId input r) (fun _ => Cleared orgId) fun _ _ => True := by
  have hopen := serving_triple (streamOpen_serving orgId deps input r) lasting_proceeding
    fun _ h => h.1
  refine (settle_triple hopen).bind fun first => ?_
  rcases first with err | _ | chunk
  · dsimp only
    split
    · exact .throw fun _ _ => trivial
    · exact .pure fun _ h => h.1
  · exact .pure fun _ h => h.1
  · have hrest : Handler.Triple (BudgetRule orgId) (Proceeding orgId)
        (command (.streamRest r.resolved.provider (providerReq input r) chunk))
        (fun _ => Proceeding orgId) fun _ _ => True :=
      command_triple (fun _ h => budgetRule_of_isAccounting rfl fun _ => h.1)
        (fun t _ h => lasting_proceeding t _ _ h rfl) fun _ _ _ => trivial
    refine hrest.bind fun answer => ?_
    obtain ⟨rest, error⟩ := answer
    cases error with
    | some error => exact .pure fun _ h => h.1
    | none =>
      exact (recordUsage_budget input r _).bind fun _ =>
        (storeReplay_budget deps input _).bind fun _ => .pure fun _ h => h

end Routed

/-- Ends with a reply if the request was let through, or without a look at the spend. -/
theorem chat_budget (deps : Deps) (input : ChatInput) :
    Handler.Triple (BudgetRule orgId) Unchecked (chat deps orgId input)
      (fun _ t => Cleared orgId t ∨ Unread t) fun _ _ => True := by
  have hanswer : Handler.Triple (BudgetRule orgId) Unchecked (answerRequest deps orgId input)
      (fun _ t => Cleared orgId t ∨ Unread t) fun _ _ => True := by
    refine ((routeRequest_triple deps input).bind fun r => ?_).conseq (fun _ h => h)
      (fun _ _ h => .inl h) fun _ _ h => h
    split
    · exact streamChat_budget deps input r
    · exact completeChat_budget deps input r
  cases hkey : input.idempotencyKey with
  | none =>
    simp only [chat, hkey]
    exact hanswer
  | some key =>
    simp only [chat, hkey, getIdempotentReplay, getAs, bind_assoc]
    refine (check_triple rfl rfl lasting_unchecked).bind fun cached => ?_
    cases cached with
    | none => exact hanswer
    | some value =>
      cases value with
      | record record => exact .pure fun _ h => .inr h.1
      | text | count | flags | processing | response => exact .throw fun _ _ => trivial

end Triples

theorem obeys_chatBudgetRule (deps : Deps) :
    (gateway deps).Obeys ChatBudgetRule ChatBudgetEnded := by
  intro p op
  have hother : (handler deps p.orgId op).run.Follows (fun _ _ => True) (fun _ _ => True) [] :=
    (Program.Triple.of_every (P := fun _ => True) (handler_confined p.orgId deps op)
      (fun _ _ _ _ => trivial) fun _ _ _ _ _ => trivial) [] trivial
  cases op with
  | chat input =>
    have hnil : Unchecked [] := ⟨fun _ h => absurd h List.not_mem_nil,
      fun _ h => absurd h List.not_mem_nil⟩
    refine (Handler.Triple.map (R := fun _ t => Cleared p.orgId t ∨ Unread t) some
      (chat_budget deps input) [] hnil).mono (fun _ _ h => h) fun r t h => ?_
    cases r <;> exact h
  | cacheStats | deleteCache | abStats | createJob | listJobs | getJob | replayJob | processJob =>
    exact hother

/-! ## What is spent -/

/-- What the requests of an org have cost since a time, as the budget counts it. -/
def recordedSpend (orgId : OrgId) (since : ℤ) (s : Store) : ℚ :=
  ((s.usageRecords.filter fun row => row.params.orgId = orgId ∧ since ≤ row.createdAt).map
    UsageRow.costUsd).sum

/-- A spend below the budget has been read. -/
def letsThrough (budget : ℚ) : GatewayEvent → Bool
  | ⟨_, .sumUsage .., .ok spent⟩ => decide (spent < budget)
  | _ => false

/-- What an insert of usage adds, if it adds a row. -/
def costOfEvent : GatewayEvent → ℚ
  | ⟨_, .insertUsage _ (some cost), _⟩ => cost
  | _ => 0

def Recorded (h : List GatewayEvent) (p : Pid) : Prop :=
  ∃ e ∈ h, e.pid = p ∧ e.cmd.recordsUsage = true

instance (h : List GatewayEvent) (p : Pid) : Decidable (Recorded h p) :=
  inferInstanceAs (Decidable (∃ e ∈ h, _))

/-- The requests of the org that have been let through and have not recorded their usage. -/
def inFlight (orgId : OrgId) (budget : ℚ) (h : List GatewayEvent) : Finset Pid :=
  ((h.filter fun e => e.pid.orgId = orgId ∧ letsThrough budget e = true ∧
    ¬Recorded h e.pid).map Event.pid).toFinset

/-- What a request has cost. -/
def costOf (h : List GatewayEvent) (p : Pid) : ℚ := ((own p h).map costOfEvent).sum

/-- The request has done nothing but check, and has not been answered. -/
structure Refused (c : GatewayConfig) (p : Pid) : Prop where
  checks : ∀ e ∈ c.world.history, e.pid = p → e.cmd.isCheck = true
  unanswered : ∀ reply, outcomeOf c p ≠ some (.ok reply)

/-- The org enforces its budget, which it has itself or from its plan. -/
structure OrgRow.Enforces (budget : ℚ) (tiers : List String) (row : OrgRow) : Prop where
  enforced : row.featureFlags.billingEnforcement = true
  budget : row.monthlyBudgetOverrideUsd = some budget ∨
    row.monthlyBudgetOverrideUsd = none ∧ row.plan ∈ tiers

instance (budget : ℚ) (tiers : List String) (row : OrgRow) :
    Decidable (row.Enforces budget tiers) :=
  decidable_of_iff (row.featureFlags.billingEnforcement = true ∧
    (row.monthlyBudgetOverrideUsd = some budget ∨
      row.monthlyBudgetOverrideUsd = none ∧ row.plan ∈ tiers)) ⟨fun h => ⟨h.1, h.2⟩,
        fun h => ⟨h.1, h.2⟩⟩

/-- The org has the budget in this state, and no other flags are cached. -/
structure Budgeted (orgId : OrgId) (budget : ℚ) (tiers : List String) (s : Store) : Prop where
  org : ∃ row, s.organizations orgId = some row ∧ row.Enforces budget tiers
  plans : ∀ tier ∈ tiers, s.billingPlans tier = some budget
  flags : ∀ flags, s.value (flagsKey orgId) = some (.flags flags) →
    flags.billingEnforcement = true

/-- All operations are chat requests, those of the org within one month, and the org keeps its
budget. -/
def Steady (orgId : OrgId) (budget : ℚ) (tiers : List String) (month : ℤ) (c : GatewayConfig) :
    Action sig Pid Drift Op → Prop
  | .start _ op => op.isChat = true
  | .command e => e.pid.orgId = orgId → startOfCurrentMonthUtc c.world.shared.clock = month
  | .drift (.tick _) => True
  | .drift (.setOrganization id row) =>
    id = orgId → (row.any fun row => decide (row.Enforces budget tiers)) = true
  | .drift (.setBillingPlan tier price) => tier ∈ tiers → price = some budget

instance (orgId : OrgId) (budget : ℚ) (tiers : List String) (month : ℤ) (c : GatewayConfig)
    (a : Action sig Pid Drift Op) : Decidable (Steady orgId budget tiers month c a) :=
  match a with
  | .start _ op => inferInstanceAs (Decidable (op.isChat = true))
  | .command _ => inferInstanceAs (Decidable (_ → _))
  | .drift (.tick _) => isTrue trivial
  | .drift (.setOrganization ..) => inferInstanceAs (Decidable (_ → _))
  | .drift (.setBillingPlan ..) => inferInstanceAs (Decidable (_ → _))

/-! ### What one command changes -/

section Effects

variable {s s' : Store} {cmd : Cmd} {orgId : OrgId} {budget : ℚ} {tiers : List String}

/-- One command adds what it inserts, or nothing. -/
theorem recordedSpend_of_effect (orgId : OrgId) (h : s.Effect cmd s') (since : ℤ) :
    recordedSpend orgId since s' = recordedSpend orgId since s ∨
      ∃ params cost, cmd = .insertUsage params (some cost) ∧ params.orgId = orgId ∧
        recordedSpend orgId since s' = recordedSpend orgId since s + cost := by
  cases h with
  | insertUsage params cost hnot =>
    by_cases hcounts : params.orgId = orgId ∧ since ≤ s.clock
    · exact .inr ⟨params, cost, rfl, hcounts.1, by simp [recordedSpend, hcounts]⟩
    · exact .inl (by simp [recordedSpend, hcounts])
  | updateJob id jobId update =>
    refine .inl ?_
    unfold Store.updateJob
    split <;> rfl
  | _ => exact .inl rfl

theorem recordedSpend_of_drift {e : Drift} (h : drift e s = some s') (since : ℤ) :
    recordedSpend orgId since s' = recordedSpend orgId since s := by
  cases e <;> cases h <;> rfl

theorem orgs_of_effect (h : s.Effect cmd s') :
    s'.organizations = s.organizations ∧ s'.billingPlans = s.billingPlans := by
  cases h with
  | updateJob id jobId update =>
    unfold Store.updateJob
    split <;> exact ⟨rfl, rfl⟩
  | _ => exact ⟨rfl, rfl⟩

theorem Budgeted.drift {c : GatewayConfig} {e : Drift} {month : ℤ}
    (hi : Budgeted orgId budget tiers s) (hal : Steady orgId budget tiers month c (.drift e))
    (h : drift e s = some s') : Budgeted orgId budget tiers s' := by
  refine ⟨?_, fun tier htier => ?_, fun flags hv => hi.flags flags (value_of_drift h hv)⟩
  · cases e with
    | tick | setBillingPlan =>
      cases h
      exact hi.org
    | setOrganization id row =>
      cases h
      by_cases hid : id = orgId
      · subst hid
        have hany := hal rfl
        cases row with
        | none => cases hany
        | some row => exact ⟨row, Function.update_self _ _ _, of_decide_eq_true hany⟩
      · obtain ⟨row, hrow, henf⟩ := hi.org
        exact ⟨row, (Function.update_of_ne (Ne.symm hid) _ _).trans hrow, henf⟩
  · cases e with
    | tick | setOrganization =>
      cases h
      exact hi.plans tier htier
    | setBillingPlan tier' price =>
      cases h
      by_cases heq : tier = tier'
      · subst heq
        exact (Function.update_self _ _ _).trans (hal htier)
      · exact (Function.update_of_ne heq _ _).trans (hi.plans tier htier)

end Effects

/-! ### What the requests have read -/

section Reads

variable {orgId : OrgId} {budget : ℚ} {tiers : List String} {month : ℤ} {c d : GatewayConfig}
  {a : Action sig Pid Drift Op}

/-- Everything that has been read of the org says that it enforces this budget in this month. -/
structure Accounted (orgId : OrgId) (budget : ℚ) (tiers : List String) (month : ℤ)
    (c : GatewayConfig) : Prop where
  chats : ∀ p P, c.procs p = some P → ∃ input, P.op = .chat input
  budgeted : Budgeted orgId budget tiers c.world.shared
  rows : ∀ p row, ⟨p, .findOrganization orgId, .ok row⟩ ∈ c.world.history →
    ∃ row', row = some row' ∧ row'.Enforces budget tiers
  plans : ∀ p tier price, ⟨p, .findBillingPlan tier, .ok price⟩ ∈ c.world.history →
    tier ∈ tiers → price = some budget
  flags : ∀ p flags, ⟨p, .redisGet (flagsKey orgId), .ok (some (.flags flags))⟩ ∈
    c.world.history → flags.billingEnforcement = true
  months : ∀ p now, p.orgId = orgId → ⟨p, .dateNow, .ok now⟩ ∈ c.world.history →
    startOfCurrentMonthUtc now = month

theorem accounted_init {s : Store} (hs : Budgeted orgId budget tiers s) :
    Accounted orgId budget tiers month (.init s) where
  chats _ _ h := nomatch h
  budgeted := hs
  rows _ _ h := absurd h List.not_mem_nil
  plans _ _ _ h := absurd h List.not_mem_nil
  flags _ _ h := absurd h List.not_mem_nil
  months _ _ _ h := absurd h List.not_mem_nil

theorem flagsKey_injective : Function.Injective flagsKey := by
  intro a b h
  exact (keyOf_flagsKey a).unique (h ▸ keyOf_flagsKey b)

/-- Flags that are cached come from a row that has been read. -/
theorem Accounted.cached {p : Pid} {s' : Store} {cmd : Cmd}
    (hi : Accounted orgId budget tiers month c)
    (hrule : BudgetRule p.orgId (transcript p c.world.history) cmd)
    (heffect : c.world.shared.Effect cmd s') :
    ∀ flags, s'.value (flagsKey orgId) = some (.flags flags) →
      flags.billingEnforcement = true := by
  intro flags hv
  rcases value_of_effect heffect hv with hold | ⟨ttlMs, rfl⟩ | ⟨ttlMs, rfl⟩ | ⟨n, hn⟩
  · exact hi.budgeted.flags flags hold
  · obtain ⟨-, hkey, row, hrow, rfl⟩ := hrule
    obtain rfl := flagsKey_injective hkey
    obtain ⟨row, rfl, henf⟩ := hi.rows p row (mem_transcript.mp hrow)
    exact henf.enforced
  · exact hrule.2.elim
  · cases hn

theorem accounted_step {deps : Deps} (hconf : System.Conforms ChatBudgetRule ChatBudgetEnded c)
    (hi : Accounted orgId budget tiers month c) (hal : Steady orgId budget tiers month c a)
    (hstep : (gateway deps).Steps c a d) : Accounted orgId budget tiers month d := by
  cases hstep with
  | start => exact { hi with chats := fun _ _ hq => chats_start hi.chats hal hq }
  | drift hx => exact { hi with budgeted := hi.budgeted.drift hal hx }
  | @command p i P cmd k r s hp hk hx =>
    obtain ⟨input, hop⟩ := hi.chats p P hp
    have hrule := hconf.allowed hp hk
    rw [hop] at hrule
    have heffect := effect_of_exec (p := p) hx
    refine ⟨fun q Q hq => ?_, ?_, fun q row hmem => ?_, fun q tier price hmem htier => ?_,
      fun q flags hmem => ?_, fun q now hq hmem => ?_⟩
    · obtain ⟨Q', hQ', heq⟩ := ops_command hp hq
      exact heq ▸ hi.chats q Q' hQ'
    · have hsame := orgs_of_effect heffect
      exact ⟨hsame.1 ▸ hi.budgeted.org, hsame.2 ▸ hi.budgeted.plans,
        hi.cached hrule heffect⟩
    · rcases List.mem_cons.mp hmem with heq | hold
      · cases heq
        cases perform_of_exec (p := p) hx
        exact hi.budgeted.org
      · exact hi.rows q row hold
    · rcases List.mem_cons.mp hmem with heq | hold
      · cases heq
        cases perform_of_exec (p := p) hx
        exact hi.budgeted.plans tier htier
      · exact hi.plans q tier price hold htier
    · rcases List.mem_cons.mp hmem with heq | hold
      · cases heq
        exact hi.budgeted.flags flags (value_of_redisGet (p := p) hx)
      · exact hi.flags q flags hold
    · rcases List.mem_cons.mp hmem with heq | hold
      · cases heq
        cases perform_of_exec (p := p) hx
        exact hal hq
      · exact hi.months q now hq hold

/-- A request of the org that goes on has read a spend below the budget. -/
theorem Accounted.read_of_cleared {p : Pid} {h : List GatewayEvent}
    (hi : Accounted orgId budget tiers month c) (hle : h <:+ c.world.history)
    (hp : p.orgId = orgId) (hcleared : Cleared p.orgId (transcript p h)) :
    ∃ since spent, ⟨p, .sumUsage orgId since, .ok spent⟩ ∈ h ∧ spent < budget := by
  subst hp
  have hrow : ∀ row, ⟨.findOrganization p.orgId, .ok row⟩ ∈ transcript p h →
      ∃ row', row = some row' ∧ row'.Enforces budget tiers :=
    fun row hmem => hi.rows p row (hle.subset (mem_transcript.mp hmem))
  rcases hcleared with ⟨flags, hflags | ⟨row, hmem, rfl⟩, hoff⟩ | ⟨b, spent, hb, hspent, hlt⟩
  · have hon := hi.flags p flags (hle.subset (mem_transcript.mp hflags))
    exact absurd hon (by simp [hoff])
  · obtain ⟨row, rfl, henf⟩ := hrow row hmem
    exact absurd henf.enforced (by simpa using hoff)
  · obtain ⟨since, hread⟩ := hspent
    obtain ⟨row, hmem, hbudget⟩ := hb
    obtain ⟨row, heq, henf⟩ := hrow _ hmem
    cases heq
    refine ⟨since, spent, mem_transcript.mp hread, hlt budget ?_⟩
    rcases hbudget with ⟨hov, hsome⟩ | ⟨hnone, hplan⟩
    · rcases henf.budget with heq | ⟨hnone, -⟩
      · exact hov.trans heq
      · rw [hov, hnone] at hsome
        cases hsome
    · rcases henf.budget with heq | ⟨-, htier⟩
      · cases heq.symm.trans hnone
      · exact hi.plans p _ _ (hle.subset (mem_transcript.mp hplan)) htier

end Reads

/-! ## The bound -/

section Costs

variable {h : List GatewayEvent} {e : GatewayEvent} {p : Pid}

theorem costOf_cons (e : GatewayEvent) (h : List GatewayEvent) (p : Pid) :
    costOf (e :: h) p = (if e.pid = p then costOfEvent e else 0) + costOf h p := by
  by_cases hp : e.pid = p
  · rw [costOf, own_cons_self hp, if_pos hp, List.map_cons, List.sum_cons, costOf]
  · rw [costOf, own_cons_of_ne hp, if_neg hp, zero_add, costOf]

theorem sum_costOf_cons (e : GatewayEvent) (h : List GatewayEvent) (ps : Finset Pid) :
    ∑ p ∈ ps, costOf (e :: h) p =
      (if e.pid ∈ ps then costOfEvent e else 0) + ∑ p ∈ ps, costOf h p := by
  simp only [costOf_cons, Finset.sum_add_distrib, Finset.sum_ite_eq]

theorem costOfEvent_eq_zero (he : e.cmd.recordsUsage = false) : costOfEvent e = 0 := by
  unfold costOfEvent
  split
  · cases he
  · rfl

/-- A request that has recorded nothing has cost nothing yet. -/
theorem costOf_eq_zero (hp : ¬Recorded h p) : costOf h p = 0 := by
  refine List.sum_eq_zero fun x hx => ?_
  obtain ⟨e, he, rfl⟩ := List.mem_map.mp hx
  obtain ⟨hmem, hpid⟩ := mem_own.mp he
  refine costOfEvent_eq_zero (Bool.eq_false_of_not_eq_true fun hrec => ?_)
  exact hp ⟨e, hmem, hpid, hrec⟩

theorem mem_inFlight {orgId : OrgId} {budget : ℚ} : p ∈ inFlight orgId budget h ↔
    p.orgId = orgId ∧ (∃ e ∈ h, e.pid = p ∧ letsThrough budget e = true) ∧ ¬Recorded h p := by
  simp only [inFlight, List.mem_toFinset, List.mem_map, List.mem_filter, decide_eq_true_eq]
  constructor
  · rintro ⟨e, ⟨hmem, horg, hlets, hrec⟩, rfl⟩
    exact ⟨horg, ⟨e, hmem, rfl, hlets⟩, hrec⟩
  · rintro ⟨horg, ⟨e, hmem, rfl, hlets⟩, hrec⟩
    exact ⟨e, ⟨hmem, horg, hlets, hrec⟩, rfl⟩

theorem not_recorded (hp : Unbilled (transcript p h)) : ¬Recorded h p := by
  rintro ⟨⟨q, cmd, r⟩, hmem, rfl, hrec⟩
  exact nomatch (hp ⟨cmd, r⟩ (mem_transcript.mpr hmem)).symm.trans hrec

end Costs

section Bound

variable {deps : Deps} {orgId : OrgId} {budget : ℚ} {tiers : List String} {month : ℤ}
  {c₁ c d : GatewayConfig} {a : Action sig Pid Drift Op}

/-- What has been spent since `c₁` is covered by the requests that were in flight then, and nobody
has been let through since. -/
structure Covered (orgId : OrgId) (budget : ℚ) (month : ℤ) (c₁ c : GatewayConfig) : Prop where
  later : c₁.world.history <:+ c.world.history
  spent : recordedSpend orgId month c.world.shared ≤ recordedSpend orgId month c₁.world.shared +
    ∑ p ∈ inFlight orgId budget c₁.world.history, costOf c.world.history p
  past : ∀ p since spent, p.orgId = orgId → spent < budget →
    ⟨p, .sumUsage orgId since, .ok spent⟩ ∈ c.world.history →
      ⟨p, .sumUsage orgId since, .ok spent⟩ ∈ c₁.world.history

theorem covered_refl (c : GatewayConfig) : Covered orgId budget month c c where
  later := List.suffix_rfl
  spent := by
    rw [Finset.sum_eq_zero fun p hp => costOf_eq_zero (mem_inFlight.mp hp).2.2, add_zero]
  past _ _ _ _ _ h := h

theorem costOfEvent_nonneg {p : Pid} {t : Transcript sig} {cmd : Cmd} {r : sig.Ans cmd}
    (hrule : BudgetRule orgId t cmd) : 0 ≤ costOfEvent ⟨p, cmd, r⟩ := by
  cases cmd with
  | insertUsage params cost =>
    cases cost with
    | none => exact le_refl _
    | some cost => exact hrule.2.2.2 cost rfl
  | _ => exact le_refl _

/-- A request of the org that records its usage was in flight when the budget was reached. -/
theorem Covered.mem_inFlight {p : Pid} (hi : Covered orgId budget month c₁ c)
    (ha : Accounted orgId budget tiers month c) (horg : p.orgId = orgId)
    (hcleared : Cleared p.orgId (transcript p c.world.history))
    (hunbilled : Unbilled (transcript p c.world.history)) :
    p ∈ inFlight orgId budget c₁.world.history := by
  obtain ⟨since, spent, hread, hlt⟩ := ha.read_of_cleared List.suffix_rfl horg hcleared
  have hpast := hi.past p since spent horg hlt hread
  refine Gateway.mem_inFlight.mpr ⟨horg, ⟨_, hpast, rfl, by simpa [letsThrough] using hlt⟩, ?_⟩
  exact not_recorded fun e he => hunbilled e ((transcript_suffix hi.later).subset he)

/-- What a request of the org reads is what has been spent in the month. -/
theorem Accounted.spent_of_read {p : Pid} {since : ℤ} {spent : ℚ} {i : Input} {s : Store}
    (ha : Accounted orgId budget tiers month c) (hp : p.orgId = orgId)
    (hrule : BudgetRule p.orgId (transcript p c.world.history) (.sumUsage orgId since))
    (hx : exec deps.similarity p (.sumUsage orgId since) i c.world.shared = some (.ok spent, s)) :
    spent = recordedSpend orgId month c.world.shared ∧ s = c.world.shared := by
  obtain ⟨now, hnow, rfl⟩ := hrule.2.2.2
  rw [ha.months p now hp (mem_transcript.mp hnow)] at hx
  cases perform_of_exec hx
  exact ⟨rfl, rfl⟩

/-- The budget is reached in `c`, or this step adds to the spend. -/
theorem covered_step (hconf : System.Conforms ChatBudgetRule ChatBudgetEnded c)
    (ha : Accounted orgId budget tiers month c) (hi : Covered orgId budget month c₁ c)
    (hover : budget ≤ recordedSpend orgId month c.world.shared ∨
      recordedSpend orgId month c.world.shared < recordedSpend orgId month d.world.shared)
    (hstep : (gateway deps).Steps c a d) : Covered orgId budget month c₁ d := by
  cases hstep with
  | start => exact ⟨hi.later, hi.spent, hi.past⟩
  | drift hx =>
    exact ⟨hi.later, (recordedSpend_of_drift hx month).trans_le hi.spent, hi.past⟩
  | @command p i P cmd k r s hp hk hx =>
    obtain ⟨input, hop⟩ := ha.chats p P hp
    have hrule := hconf.allowed hp hk
    rw [hop] at hrule
    refine ⟨hi.later.trans (List.suffix_cons _ _), ?_, fun q since spent hq hlt hmem => ?_⟩
    · rw [World.after_history, sum_costOf_cons]
      have hnonneg : 0 ≤ costOfEvent ⟨p, cmd, r⟩ := costOfEvent_nonneg hrule
      rcases recordedSpend_of_effect orgId (effect_of_exec (p := p) hx) month with
        hsame | ⟨params, cost, rfl, hparams, hadd⟩
      · refine (hsame.trans_le hi.spent).trans ?_
        split <;> linarith
      · have horg : p.orgId = orgId := hrule.2.1.symm.trans hparams
        have hmem := hi.mem_inFlight ha horg (hrule.1 rfl) hrule.2.2.1
        rw [if_pos hmem]
        have hspent := hi.spent
        calc recordedSpend orgId month s
            = recordedSpend orgId month c.world.shared + cost := hadd
          _ ≤ _ := by
            show _ ≤ recordedSpend orgId month c₁.world.shared + (cost + _)
            linarith
    · rcases List.mem_cons.mp hmem with heq | hold
      · -- whoever reads the spend now finds the budget used up
        cases heq
        obtain ⟨rfl, rfl⟩ := ha.spent_of_read hq hrule hx
        rcases hover with hover | hover
        · exact absurd hlt (not_lt.mpr hover)
        · exact absurd hover (lt_irrefl _)
      · exact hi.past q since spent hq hlt hold

theorem recordedSpend_le_step (hconf : System.Conforms ChatBudgetRule ChatBudgetEnded c)
    (ha : Accounted orgId budget tiers month c) (hstep : (gateway deps).Steps c a d) :
    recordedSpend orgId month c.world.shared ≤ recordedSpend orgId month d.world.shared := by
  cases hstep with
  | start => exact le_refl _
  | drift hx => exact (recordedSpend_of_drift hx month).ge
  | @command p i P cmd k r s hp hk hx =>
    obtain ⟨input, hop⟩ := ha.chats p P hp
    have hrule := hconf.allowed hp hk
    rw [hop] at hrule
    rcases recordedSpend_of_effect orgId (effect_of_exec (p := p) hx) month with
      hsame | ⟨params, cost, rfl, -, hadd⟩
    · exact hsame.ge
    · have hcost : 0 ≤ cost := hrule.2.2.2 cost rfl
      exact le_of_le_of_eq (le_add_of_nonneg_right hcost) hadd.symm

/-- A request reads the spend once. -/
theorem eq_of_readsSpend (hconf : System.Conforms ChatBudgetRule ChatBudgetEnded c)
    (ha : Accounted orgId budget tiers month c) {e e' : GatewayEvent}
    (he : e ∈ c.world.history) (he' : e' ∈ c.world.history) (hpid : e.pid = e'.pid)
    (hread : e.cmd.readsSpend = true) (hread' : e'.cmd.readsSpend = true) : e = e' := by
  have hbefore : ∀ e ∈ c.world.history, e.cmd.readsSpend = true →
      ∃ hist, e :: hist <:+ c.world.history ∧ Unread (transcript e.pid hist) := by
    rintro ⟨p, cmd, r⟩ hmem hr
    obtain ⟨P, hist, hP, hsuf, hrule⟩ := hconf.exists_of_mem hmem
    obtain ⟨input, hop⟩ := ha.chats p P hP
    rw [hop] at hrule
    cases cmd with
    | sumUsage id since => exact ⟨hist, hsuf, hrule.2.2.1⟩
    | _ => cases hr
  obtain ⟨hist, hsuf, hun⟩ := hbefore e he hread
  obtain ⟨hist', hsuf', hun'⟩ := hbefore e' he' hread'
  rcases System.cases_of_suffix hsuf hsuf' with hmem | heq | hmem
  · have hmem' : (⟨e'.cmd, e'.ans⟩ : Exchange sig) ∈ transcript e.pid hist := by
      rw [hpid]
      exact mem_transcript.mpr hmem
    exact nomatch hread'.symm.trans (hun _ hmem')
  · exact heq
  · have hmem' : (⟨e.cmd, e.ans⟩ : Exchange sig) ∈ transcript e'.pid hist' := by
      rw [← hpid]
      exact mem_transcript.mpr hmem
    exact nomatch hread.symm.trans (hun' _ hmem')

/-- Whoever has read that the budget is used up is refused. -/
theorem refused_of_read (hconf : System.Conforms ChatBudgetRule ChatBudgetEnded c)
    (ha : Accounted orgId budget tiers month c) {p : Pid} {id : OrgId} {since : ℤ}
    {r : sig.Ans (.sumUsage id since)} (hp : p.orgId = orgId)
    (hmem : ⟨p, .sumUsage id since, r⟩ ∈ c.world.history)
    (hr : ∀ spent, r = .ok spent → budget ≤ spent) : Refused c p := by
  have hnot : ∀ h, h <:+ c.world.history → ¬Cleared p.orgId (transcript p h) := by
    intro h hle hcleared
    obtain ⟨since', spent, hread, hlt⟩ := ha.read_of_cleared hle hp hcleared
    cases eq_of_readsSpend hconf ha hmem (hle.subset hread) rfl rfl rfl
    exact absurd hlt (not_lt.mpr (hr spent rfl))
  refine ⟨?_, fun reply hout => ?_⟩
  · rintro ⟨q, cmd, answer⟩ he rfl
    obtain ⟨P, hist, hP, hsuf, hrule⟩ := hconf.exists_of_mem he
    obtain ⟨input, hop⟩ := ha.chats q P hP
    rw [hop] at hrule
    by_contra hcheck
    exact hnot hist ((List.suffix_cons _ _).trans hsuf)
      (hrule.1 (Bool.eq_false_of_not_eq_true hcheck))
  · obtain ⟨P, hP, hret⟩ := Option.bind_eq_some_iff.mp hout
    obtain ⟨input, hop⟩ := ha.chats p P hP
    have hend := hconf.result (r := .ok reply) hP (by
      cases hprog : P.prog with
      | done out => simpa [hprog, Program.returned] using hret
      | issue cmd k => simp [hprog, Program.returned] at hret)
    rw [hop] at hend
    rcases hend with hcleared | hunread
    · exact hnot _ List.suffix_rfl hcleared
    · exact nomatch hunread _ (mem_transcript.mpr hmem)

theorem mem_history_of_steps {e : GatewayEvent} (h : (gateway deps).Steps c (.command e) d) :
    e ∈ d.world.history := by
  cases h
  exact List.mem_cons_self

end Bound

/-- No request that reads the spend when the budget is used up is let through, and what is spent
beyond the budget are the costs of the requests in flight when it was reached: of those that had
been let through and had not recorded their usage. -/
theorem overshoot_bounded (deps : Deps) (orgId : OrgId) (budget : ℚ) (tiers : List String)
    (month : ℤ) (s : Store) (hs : Budgeted orgId budget tiers s) (before after : List GatewayLabel)
    (l : GatewayLabel) (a : Action sig Pid Drift Op) (c₁ c₂ c : GatewayConfig)
    (hbefore : (gateway deps).run (.init s) before = some c₁)
    (hl : (gateway deps).next c₁ l = some (a, c₂))
    (hafter : (gateway deps).run c₂ after = some c)
    (hal : (gateway deps).Along (Steady orgId budget tiers month) (.init s)
      (before ++ l :: after)) :
    (∀ p since r, a = .command ⟨p, .sumUsage orgId since, r⟩ → p.orgId = orgId →
      budget ≤ recordedSpend orgId month c₁.world.shared → Refused c p) ∧
    (recordedSpend orgId month c₁.world.shared < budget →
      budget ≤ recordedSpend orgId month c₂.world.shared →
        recordedSpend orgId month c.world.shared ≤ recordedSpend orgId month c₁.world.shared +
          ∑ p ∈ inFlight orgId budget c₁.world.history, costOf c.world.history p) := by
  have hobeys := obeys_chatBudgetRule deps
  have hconf₁ := System.conforms_run hobeys hbefore
  obtain ⟨hal₁, hal₂⟩ := (System.along_append hbefore).mp hal
  obtain ⟨hsteady, hrest⟩ := hal₂ a c₂ hl
  have hstep := System.steps_of_next hl
  have hconf₂ := hconf₁.step hobeys hstep
  have hkept : ∀ c a d, System.Conforms ChatBudgetRule ChatBudgetEnded c →
      Accounted orgId budget tiers month c → Steady orgId budget tiers month c a →
        (gateway deps).Steps c a d → Accounted orgId budget tiers month d :=
    fun _ _ _ hc hi ha hst => accounted_step hc hi ha hst
  have ha₁ := System.invariant_run hobeys hkept (System.conforms_init s) (accounted_init hs)
    hbefore hal₁
  have ha₂ := hkept c₁ a c₂ hconf₁ ha₁ hsteady hstep
  constructor
  · -- who reads a spend that is at the budget is refused
    intro p since r heq hp hover
    have hrun := System.run_append.mpr ⟨c₁, hbefore, System.run_cons.mpr ⟨a, c₂, hl, hafter⟩⟩
    have ha := System.invariant_run hobeys hkept hconf₂ ha₂ hafter hrest
    subst heq
    have hmem : ⟨p, .sumUsage orgId since, r⟩ ∈ c.world.history :=
      (System.run_history_suffix hafter).subset (mem_history_of_steps hstep)
    refine refused_of_read (System.conforms_run hobeys hrun) ha hp hmem fun spent hr => ?_
    subst hr
    cases hstep with
    | command hproc hk hx =>
      obtain ⟨input, hop⟩ := ha₁.chats p _ hproc
      have hrule := hconf₁.allowed hproc hk
      rw [hop] at hrule
      exact hover.trans_eq (ha₁.spent_of_read hp hrule hx).1.symm
  · -- what is spent beyond the budget is covered from the step on that reaches it
    intro hbelow hreached
    have hcov₂ := covered_step hconf₁ ha₁ (covered_refl c₁) (.inr (hbelow.trans_le hreached)) hstep
    have hcov : (Accounted orgId budget tiers month c ∧
        budget ≤ recordedSpend orgId month c.world.shared) ∧
          Covered orgId budget month c₁ c := by
      refine System.invariant_run (I := fun c => (Accounted orgId budget tiers month c ∧
        budget ≤ recordedSpend orgId month c.world.shared) ∧ Covered orgId budget month c₁ c)
        hobeys (fun c a d hc hi ha hst => ?_) hconf₂ ⟨⟨ha₂, hreached⟩, hcov₂⟩ hafter hrest
      obtain ⟨⟨hacc, hover⟩, hcov⟩ := hi
      exact ⟨⟨hkept c a d hc hacc ha hst,
        hover.trans (recordedSpend_le_step hc hacc hst)⟩,
        covered_step hc hacc hcov (.inl hover) hst⟩
    exact hcov.2.spent

/-! ### Three requests on a small budget -/

def smallBudget : ℚ := 5 / 1000000

def enforcing (orgId : OrgId) : Option OrgRow :=
  if orgId = tenantA then
    some ⟨"free", none, { OrgFeatureFlags.defaults with billingEnforcement := true }⟩
  else none

def smallPlans (tier : String) : Option ℚ := if tier = "free" then some smallBudget else none

/-- The check of a request, up to the spend. -/
def checking (token : Uuid) : List Choice :=
  [.nothing, .id token, .nothing, .nothing, .nothing, .nothing, .nothing]

/-- Two requests are let through, and both have been answered. -/
def overlapping : List GatewayLabel :=
  .start ⟨tenantA, 0⟩ (.chat (greeting "gpt-4o-mini" none)) ::
    steps ⟨tenantA, 0⟩ ([.nothing, .nothing, .nothing] ++ checking tenantA ++ .nothing ::
      calling (.ok (greeted "chatcmpl-1"))) ++
  .start ⟨tenantA, 1⟩ (.chat (greeting "gpt-4o-mini" none)) ::
    steps ⟨tenantA, 1⟩ (.nothing :: checking tenantB ++ .nothing ::
      calling (.ok (greeted "chatcmpl-2")))

/-- The second one records its usage, and a third one is refused. -/
def overspent : List GatewayLabel :=
  steps ⟨tenantA, 1⟩ [.nothing] ++
  .start ⟨tenantA, 2⟩ (.chat (greeting "gpt-4o-mini" none)) ::
    steps ⟨tenantA, 2⟩ (.nothing :: checking ⟨"00000000-0000-0000-0000-00000000000c", by decide⟩ ++
      [.nothing, .nothing])

theorem overshoot_bounded_overspent :
    ∃ c₁ a c₂ c,
      (gateway plainDeps).run (.init (.fresh enforcing smallPlans)) overlapping = some c₁ ∧
      (gateway plainDeps).next c₁ (.step ⟨tenantA, 0⟩ ⟨.nothing, none⟩) = some (a, c₂) ∧
      (gateway plainDeps).run c₂ overspent = some c ∧
      recordedSpend tenantA 0 c₁.world.shared = 0 ∧
      recordedSpend tenantA 0 c.world.shared = 2 * smallBudget ∧
      recordedSpend tenantA 0 c.world.shared ≤ recordedSpend tenantA 0 c₁.world.shared +
        ∑ p ∈ inFlight tenantA smallBudget c₁.world.history, costOf c.world.history p := by
  have hrun : ((gateway plainDeps).run (.init (.fresh enforcing smallPlans)) overlapping).bind
      (fun c₁ => ((gateway plainDeps).next c₁ (.step ⟨tenantA, 0⟩ ⟨.nothing, none⟩)).bind
        fun x => ((gateway plainDeps).run x.2 overspent).map fun c => decide (
          recordedSpend tenantA 0 c₁.world.shared = 0 ∧
          smallBudget ≤ recordedSpend tenantA 0 x.2.world.shared ∧
          recordedSpend tenantA 0 c.world.shared = 2 * smallBudget)) = some true := by
    decide +kernel
  obtain ⟨c₁, h₁, hrun⟩ := Option.bind_eq_some_iff.mp hrun
  obtain ⟨⟨a, c₂⟩, h₂, hrun⟩ := Option.bind_eq_some_iff.mp hrun
  obtain ⟨c, h, hrun⟩ := Option.map_eq_some_iff.mp hrun
  obtain ⟨hzero, hreached, htwice⟩ := of_decide_eq_true hrun
  have hbudgeted : Budgeted tenantA smallBudget ["free"] (.fresh enforcing smallPlans) := by
    refine ⟨⟨_, rfl, by decide⟩, fun tier htier => ?_, fun flags hv => by cases hv⟩
    rw [List.mem_singleton.mp htier]
    rfl
  refine ⟨c₁, a, c₂, c, h₁, h₂, h, hzero, htwice, ?_⟩
  have hal : (gateway plainDeps).Along (Steady tenantA smallBudget ["free"] 0)
      (.init (.fresh enforcing smallPlans))
      (overlapping ++ .step ⟨tenantA, 0⟩ ⟨.nothing, none⟩ :: overspent) := by
    decide +kernel
  have hbelow : recordedSpend tenantA 0 c₁.world.shared < smallBudget := by
    rw [hzero]
    decide +kernel
  exact (overshoot_bounded plainDeps tenantA smallBudget ["free"] 0 _ hbudgeted overlapping
    overspent _ a c₁ c₂ c h₁ h₂ h hal).2 hbelow hreached

end CloudMesh.Gateway
