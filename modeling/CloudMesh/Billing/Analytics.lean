import CloudMesh.GroupBy
import Mathlib.Algebra.Order.Ring.Rat
import Mathlib.Data.List.Sort

/-!
# Analytics

`getAnalytics` of `apps/api/src/modules/analytics/service.ts`, among usage inserts that commit
meanwhile. It reads the table twice in one transaction, by hour and by model, and in READ COMMITTED
each statement sees what has been committed when it starts. Its casts to 32-bit integers fail for
sums that are too large.

## Main definitions

- `bucketStatement`, `modelStatement` — the two statements
- `run` — a call and the inserts, in any order
- `Agrees` — the two views describe one set of rows
- `agrees_iff` — when they do
-/

namespace CloudMesh.Analytics

open GroupBy

/-! ## Tables -/

/-- A row of `usage_records`, with what is read of it; times are in milliseconds. -/
structure UsageRecord where
  orgId : String
  model : String
  promptTokens : ℤ
  completionTokens : ℤ
  costUsd : ℚ
  createdAt : ℤ
  deriving DecidableEq

/-- `"24h"`, `"7d"` and `"30d"`. -/
inductive Period
  | day
  | week
  | month
  deriving DecidableEq

/-- `PERIOD_LOOKBACK_MS`. -/
def lookbackMs : Period → ℤ
  | .day => 24 * 60 * 60 * 1000
  | .week => 7 * 24 * 60 * 60 * 1000
  | .month => 30 * 24 * 60 * 60 * 1000

/-- The beginning of the hour stands for the text that `toISOString` makes of it. -/
structure HourlyBucket where
  bucket : ℤ
  requests : ℤ
  promptTokens : ℤ
  completionTokens : ℤ
  costUsd : ℚ
  deriving DecidableEq

structure ModelBreakdown where
  model : String
  requests : ℤ
  costUsd : ℚ
  deriving DecidableEq

structure Totals where
  requests : ℤ
  tokens : ℤ
  costUsd : ℚ
  deriving DecidableEq

structure AnalyticsSummary where
  period : Period
  buckets : List HourlyBucket
  byModel : List ModelBreakdown
  totals : Totals

inductive DbError
  | integerOutOfRange
  deriving DecidableEq

/-! ## Statements -/

/-- What `::int` takes. -/
def IsInt4 (n : ℤ) : Prop := -2 ^ 31 ≤ n ∧ n < 2 ^ 31

instance (n : ℤ) : Decidable (IsInt4 n) := inferInstanceAs (Decidable (_ ∧ _))

section Statements

variable (orgId : String) (since : ℤ) (rows : List UsageRecord)

/-- `WHERE org_id = ${orgId}::uuid AND created_at >= ${since}`. -/
def Selects (row : UsageRecord) : Prop := row.orgId = orgId ∧ since ≤ row.createdAt

instance : DecidablePred (Selects orgId since) :=
  fun _ => inferInstanceAs (Decidable (_ ∧ _))

def selected : List UsageRecord := rows.filter (Selects orgId since)

def hourMs : ℤ := 60 * 60 * 1000

/-- `date_trunc('hour', created_at)`. -/
def hourOf (row : UsageRecord) : ℤ := row.createdAt / hourMs * hourMs

/-- The sums of a group of rows. -/
def hourlyBucket (bucket : ℤ) (group : List UsageRecord) : HourlyBucket where
  bucket
  requests := group.length
  promptTokens := (group.map UsageRecord.promptTokens).sum
  completionTokens := (group.map UsageRecord.completionTokens).sum
  costUsd := (group.map UsageRecord.costUsd).sum

/-- No cast of the row fails. -/
def HourlyBucket.Casts (bucket : HourlyBucket) : Prop :=
  IsInt4 bucket.requests ∧ IsInt4 bucket.promptTokens ∧ IsInt4 bucket.completionTokens

instance (bucket : HourlyBucket) : Decidable bucket.Casts := inferInstanceAs (Decidable (_ ∧ _ ∧ _))

def modelBreakdown (model : String) (group : List UsageRecord) : ModelBreakdown where
  model
  requests := group.length
  costUsd := (group.map UsageRecord.costUsd).sum

/-- `GROUP BY bucket ORDER BY bucket ASC`. -/
def bucketsOf : List HourlyBucket :=
  ((keys hourOf rows).insertionSort (· ≤ ·)).map fun bucket =>
    hourlyBucket bucket (group hourOf bucket rows)

/-- `GROUP BY model`. -/
def modelsOf : List ModelBreakdown :=
  (keys UsageRecord.model rows).map fun model =>
    modelBreakdown model (group UsageRecord.model model rows)

def bucketStatement : Except DbError (List HourlyBucket) :=
  let buckets := bucketsOf (selected orgId since rows)
  if ∀ b ∈ buckets, b.Casts then .ok buckets else .error .integerOutOfRange

/-- `ORDER BY cost_usd DESC`; models of one cost stand in any order. -/
def modelStatement : Except DbError (List ModelBreakdown) :=
  let models := modelsOf (selected orgId since rows)
  if ∀ m ∈ models, IsInt4 m.requests then
    .ok (models.insertionSort fun m m' => m'.costUsd ≤ m.costUsd)
  else .error .integerOutOfRange

end Statements

def totalsOf (buckets : List HourlyBucket) : Totals :=
  buckets.foldl (fun acc b => ⟨acc.requests + b.requests,
    acc.tokens + b.promptTokens + b.completionTokens, acc.costUsd + b.costUsd⟩) ⟨0, 0, 0⟩

/-! ## A call among inserts -/

/-- How far a call of `getAnalytics` is. -/
inductive Phase
  | opened
  | bucketsRead (buckets : List HourlyBucket)
  | returned (result : Except DbError AnalyticsSummary)

structure Call where
  /-- What has been committed. -/
  rows : List UsageRecord
  phase : Phase

inductive Event
  /-- A transaction that has inserted the row commits. -/
  | commit (row : UsageRecord)
  /-- The call executes its next statement. -/
  | statement

def Event.isStatement : Event → Bool
  | .commit _ => false
  | .statement => true

section Calls

variable (orgId : String) (period : Period) (now : ℤ)

def since : ℤ := now - lookbackMs period

/-- The next statement, on the rows that are committed. -/
def execute (rows : List UsageRecord) : Phase → Phase
  | .opened =>
    match bucketStatement orgId (since period now) rows with
    | .ok buckets => .bucketsRead buckets
    | .error e => .returned (.error e)
  | .bucketsRead buckets =>
    match modelStatement orgId (since period now) rows with
    | .ok byModel => .returned (.ok ⟨period, buckets, byModel, totalsOf buckets⟩)
    | .error e => .returned (.error e)
  | .returned result => .returned result

def step (call : Call) : Event → Call
  | .commit row => { call with rows := call.rows ++ [row] }
  | .statement => { call with phase := execute orgId period now call.rows call.phase }

/-- From the rows that are committed when the call is made. -/
def run (rows : List UsageRecord) (events : List Event) : Call :=
  events.foldl (step orgId period now) ⟨rows, .opened⟩

/-! ## Agreement -/

/-- The buckets are the org's rows of the period, by hour. -/
structure Covers (rows : List UsageRecord) (buckets : List HourlyBucket) : Prop where
  hours : ∀ hour, hour ∈ buckets.map HourlyBucket.bucket ↔
    ∃ row ∈ selected orgId (since period now) rows, hourOf row = hour
  sums : ∀ b ∈ buckets,
    b = hourlyBucket b.bucket (group hourOf b.bucket (selected orgId (since period now) rows))

structure Agree (rows : List UsageRecord) (events : List Event) (summary : AnalyticsSummary) :
    Prop where
  hours : ∀ b ∈ summary.buckets, hourMs ∣ b.bucket
  ascending : (summary.buckets.map HourlyBucket.bucket).Pairwise (· < ·)
  /-- The rows are those of one state of the table before the call has returned. -/
  covers : ∃ past future, events = past ++ future ∧
    (∀ result, (run orgId period now rows past).phase ≠ .returned result) ∧
      Covers orgId period now (run orgId period now rows past).rows summary.buckets
  requests : summary.totals.requests = (summary.buckets.map HourlyBucket.requests).sum
  tokens : summary.totals.tokens =
    (summary.buckets.map fun b => b.promptTokens + b.completionTokens).sum
  cost : summary.totals.costUsd = (summary.buckets.map HourlyBucket.costUsd).sum
  modelRequests : (summary.byModel.map ModelBreakdown.requests).sum = summary.totals.requests
  modelCost : (summary.byModel.map ModelBreakdown.costUsd).sum = summary.totals.costUsd

/-- The call has returned a summary whose views agree. -/
def Agrees (rows : List UsageRecord) (events : List Event) : Prop :=
  ∃ summary, (run orgId period now rows events).phase = .returned (.ok summary) ∧
    Agree orgId period now rows events summary

/-! ## When they agree -/

/-- The rows that are committed before the next statement. -/
def beforeStatement : List Event → List UsageRecord
  | [] => []
  | .commit row :: events => row :: beforeStatement events
  | .statement :: _ => []

def afterStatement : List Event → List Event
  | [] => []
  | .commit _ :: events => afterStatement events
  | .statement :: events => events

/-- Between the two statements no row of the org in the period is committed. -/
def Undisturbed (events : List Event) : Prop :=
  ∀ row ∈ beforeStatement (afterStatement events), ¬Selects orgId (since period now) row

/-- For each hour and each model the sums over the rows are 32-bit integers. -/
structure Fits (rows : List UsageRecord) : Prop where
  hour : ∀ hour,
    (hourlyBucket hour (group hourOf hour (selected orgId (since period now) rows))).Casts
  model : ∀ model, IsInt4 (modelBreakdown model
    (group UsageRecord.model model (selected orgId (since period now) rows))).requests

end Calls

/-! ## The statements -/

section Views

variable {orgId : String} {period : Period} {now since : ℤ} {rows more : List UsageRecord}
  {buckets : List HourlyBucket} {models : List ModelBreakdown}

theorem ite_eq_ok_iff {ε α : Type} {p : Prop} [Decidable p] {a b : α} {e : ε} :
    (if p then Except.ok a else .error e) = .ok b ↔ p ∧ b = a := by
  split
  · next h => exact ⟨fun heq => ⟨h, (Except.ok.inj heq).symm⟩, fun heq => congrArg _ heq.2.symm⟩
  · next h => exact ⟨nofun, fun heq => absurd heq.1 h⟩

theorem bucketStatement_eq_ok_iff : bucketStatement orgId since rows = .ok buckets ↔
    (∀ hour, (hourlyBucket hour (group hourOf hour (selected orgId since rows))).Casts) ∧
      buckets = bucketsOf (selected orgId since rows) := by
  refine ite_eq_ok_iff.trans (and_congr_left fun _ => ?_)
  rw [bucketsOf, List.forall_mem_map]
  refine ⟨fun h hour => ?_, fun h hour _ => h hour⟩
  by_cases hkey : hour ∈ keys hourOf (selected orgId since rows)
  · exact h hour ((List.perm_insertionSort _ _).mem_iff.mpr hkey)
  · rw [group_eq_nil hkey]
    exact (by decide : IsInt4 0 ∧ IsInt4 0 ∧ IsInt4 0)

theorem modelStatement_eq_ok_iff : modelStatement orgId since rows = .ok models ↔
    (∀ model, IsInt4 (modelBreakdown model
      (group UsageRecord.model model (selected orgId since rows))).requests) ∧
      models = (modelsOf (selected orgId since rows)).insertionSort
        fun m m' => m'.costUsd ≤ m.costUsd := by
  refine ite_eq_ok_iff.trans (and_congr_left fun _ => ?_)
  rw [modelsOf, List.forall_mem_map]
  refine ⟨fun h model => ?_, fun h model _ => h model⟩
  by_cases hkey : model ∈ keys UsageRecord.model (selected orgId since rows)
  · exact h model hkey
  · rw [group_eq_nil hkey]
    exact (by decide : IsInt4 0)

/-! ### Sums over the views -/

theorem totalsOf_eq (buckets : List HourlyBucket) : totalsOf buckets =
    ⟨(buckets.map HourlyBucket.requests).sum,
      (buckets.map fun b => b.promptTokens + b.completionTokens).sum,
      (buckets.map HourlyBucket.costUsd).sum⟩ := by
  have hfrom : ∀ acc : Totals, (buckets.foldl (fun acc b => ⟨acc.requests + b.requests,
      acc.tokens + b.promptTokens + b.completionTokens, acc.costUsd + b.costUsd⟩) acc : Totals) =
      ⟨acc.requests + (buckets.map HourlyBucket.requests).sum,
        acc.tokens + (buckets.map fun b => b.promptTokens + b.completionTokens).sum,
        acc.costUsd + (buckets.map HourlyBucket.costUsd).sum⟩ := by
    induction buckets with
    | nil => simp
    | cons b buckets ih =>
      intro acc
      rw [List.foldl_cons, ih]
      simp [add_assoc]
  rw [totalsOf, hfrom]
  simp

theorem requests_bucketsOf (rows : List UsageRecord) :
    ((bucketsOf rows).map HourlyBucket.requests).sum = rows.length := by
  rw [bucketsOf, List.map_map]
  exact sum_length_of_perm (List.perm_insertionSort _ _)

theorem costUsd_bucketsOf (rows : List UsageRecord) :
    ((bucketsOf rows).map HourlyBucket.costUsd).sum = (rows.map UsageRecord.costUsd).sum := by
  rw [bucketsOf, List.map_map]
  exact sum_group_of_perm UsageRecord.costUsd (List.perm_insertionSort _ _)

theorem requests_modelsOf (rows : List UsageRecord) :
    ((modelsOf rows).map ModelBreakdown.requests).sum = rows.length := by
  rw [modelsOf, List.map_map]
  exact sum_length_of_perm (List.Perm.refl _)

theorem costUsd_modelsOf (rows : List UsageRecord) :
    ((modelsOf rows).map ModelBreakdown.costUsd).sum = (rows.map UsageRecord.costUsd).sum := by
  rw [modelsOf, List.map_map]
  exact sum_group_of_perm UsageRecord.costUsd (List.Perm.refl _)

/-! ### The buckets -/

theorem map_bucket_bucketsOf (rows : List UsageRecord) :
    (bucketsOf rows).map HourlyBucket.bucket = (keys hourOf rows).insertionSort (· ≤ ·) := by
  rw [bucketsOf, List.map_map]
  exact List.map_id _

theorem ascending_bucketsOf (rows : List UsageRecord) :
    ((bucketsOf rows).map HourlyBucket.bucket).Pairwise (· < ·) := by
  rw [map_bucket_bucketsOf]
  have hsorted := List.pairwise_insertionSort (· ≤ ·) (keys hourOf rows)
  have hnodup : ((keys hourOf rows).insertionSort (· ≤ ·)).Nodup :=
    (List.perm_insertionSort _ _).nodup_iff.mpr (nodup_keys _ _)
  exact (hsorted.and hnodup).imp fun h => lt_of_le_of_ne h.1 h.2

theorem covers_bucketsOf (rows : List UsageRecord) :
    Covers orgId period now rows
      (bucketsOf (selected orgId (Analytics.since period now) rows)) := by
  constructor
  · intro hour
    rw [map_bucket_bucketsOf, (List.perm_insertionSort _ _).mem_iff, mem_keys]
  · intro b hb
    obtain ⟨hour, -, rfl⟩ := List.mem_map.mp hb
    rfl

theorem hourMs_dvd_bucketsOf (rows : List UsageRecord) :
    ∀ b ∈ bucketsOf rows, hourMs ∣ b.bucket := by
  intro b hb
  have hmem := List.mem_map_of_mem (f := HourlyBucket.bucket) hb
  rw [map_bucket_bucketsOf, (List.perm_insertionSort _ _).mem_iff, mem_keys] at hmem
  obtain ⟨row, -, hrow⟩ := hmem
  rw [← hrow]
  exact Dvd.intro_left _ rfl

end Views

/-! ## Runs -/

section Runs

variable {orgId : String} {period : Period} {now : ℤ} {rows : List UsageRecord}
  {events : List Event} {call : Call} {result : Except DbError AnalyticsSummary}
  {summary : AnalyticsSummary}

theorem eq_commits_append (h : 0 < events.countP Event.isStatement) :
    events = (beforeStatement events).map Event.commit ++ .statement :: afterStatement events := by
  induction events with
  | nil => cases h
  | cons event events ih =>
    cases event with
    | commit row =>
      rw [List.countP_cons_of_neg Bool.false_ne_true] at h
      rw [beforeStatement, afterStatement, List.map_cons, List.cons_append, ← ih h]
    | statement => rfl

theorem countP_afterStatement (h : 0 < events.countP Event.isStatement) :
    events.countP Event.isStatement = (afterStatement events).countP Event.isStatement + 1 := by
  induction events with
  | nil => cases h
  | cons event events ih =>
    cases event with
    | commit row =>
      rw [List.countP_cons_of_neg Bool.false_ne_true] at h ⊢
      exact ih h
    | statement => exact List.countP_cons_of_pos rfl

/-- Commits add their rows. -/
theorem foldl_step_commits (call : Call) (more : List UsageRecord) :
    (more.map Event.commit).foldl (step orgId period now) call =
      ⟨call.rows ++ more, call.phase⟩ := by
  induction more generalizing call with
  | nil => rw [List.append_nil]; rfl
  | cons row more ih =>
    rw [List.map_cons, List.foldl_cons, ih, step, List.append_assoc]
    rfl

/-- Until the next statement, and the statement. -/
theorem foldl_step (h : 0 < events.countP Event.isStatement) (call : Call) :
    events.foldl (step orgId period now) call =
      (afterStatement events).foldl (step orgId period now)
        ⟨call.rows ++ beforeStatement events,
          execute orgId period now (call.rows ++ beforeStatement events) call.phase⟩ := by
  conv_lhs => rw [eq_commits_append h]
  rw [List.foldl_append, foldl_step_commits, List.foldl_cons]
  rfl

theorem phase_foldl_of_returned (h : call.phase = .returned result) (events : List Event) :
    (events.foldl (step orgId period now) call).phase = .returned result := by
  induction events generalizing call with
  | nil => exact h
  | cons event events ih =>
    rw [List.foldl_cons]
    apply ih
    cases event with
    | commit row => exact h
    | statement =>
      rw [step, h]
      rfl

/-- The call returns what the two statements see. -/
theorem phase_run_eq_ok_iff (h : 2 ≤ events.countP Event.isStatement) :
    (run orgId period now rows events).phase = .returned (.ok summary) ↔
      ∃ buckets byModel,
        bucketStatement orgId (since period now) (rows ++ beforeStatement events) = .ok buckets ∧
        modelStatement orgId (since period now) (rows ++ beforeStatement events ++
          beforeStatement (afterStatement events)) = .ok byModel ∧
        summary = ⟨period, buckets, byModel, totalsOf buckets⟩ := by
  have hcount := countP_afterStatement (Nat.lt_of_lt_of_le Nat.zero_lt_two h)
  rw [run, foldl_step (by omega)]
  dsimp only [execute]
  cases hbuckets : bucketStatement orgId (since period now) (rows ++ beforeStatement events) with
  | error e =>
    -- a failed cast ends the call, whatever is committed later
    rw [phase_foldl_of_returned rfl]
    simp
  | ok buckets =>
    rw [foldl_step (by omega)]
    dsimp only [execute]
    cases hmodels : modelStatement orgId (since period now) (rows ++ beforeStatement events ++
        beforeStatement (afterStatement events)) with
    | error e =>
      rw [phase_foldl_of_returned rfl]
      simp
    | ok byModel =>
      rw [phase_foldl_of_returned rfl]
      simp [eq_comm]

theorem selected_append (xs ys : List UsageRecord) :
    selected orgId (since period now) (xs ++ ys) =
      selected orgId (since period now) xs ++ selected orgId (since period now) ys :=
  List.filter_append xs ys

theorem undisturbed_iff : Undisturbed orgId period now events ↔
    selected orgId (since period now) (beforeStatement (afterStatement events)) = [] := by
  rw [selected, List.filter_eq_nil_iff]
  simp only [decide_eq_true_eq]
  rfl

/-- The models' requests are the rows of the second statement. -/
theorem requests_sorted (rows : List UsageRecord) :
    (((modelsOf rows).insertionSort fun m m' => m'.costUsd ≤ m.costUsd).map
      ModelBreakdown.requests).sum = rows.length := by
  rw [((List.perm_insertionSort _ _).map _).sum_eq, requests_modelsOf]

theorem costUsd_sorted (rows : List UsageRecord) :
    (((modelsOf rows).insertionSort fun m m' => m'.costUsd ≤ m.costUsd).map
      ModelBreakdown.costUsd).sum = (rows.map UsageRecord.costUsd).sum := by
  rw [((List.perm_insertionSort _ _).map _).sum_eq, costUsd_modelsOf]

/-- What the first statement sees is a state of the table before the call has returned. -/
theorem exists_state (h : 0 < events.countP Event.isStatement) :
    ∃ past future, events = past ++ future ∧
      (∀ result, (run orgId period now rows past).phase ≠ .returned result) ∧
        (run orgId period now rows past).rows = rows ++ beforeStatement events := by
  refine ⟨_, _, eq_commits_append h, ?_, ?_⟩
  · intro result
    rw [run, foldl_step_commits]
    nofun
  · rw [run, foldl_step_commits]

/-- A call whose views agree was not disturbed, and its sums are not too large for their casts. -/
theorem of_agrees (h : 2 ≤ events.countP Event.isStatement)
    (hagrees : Agrees orgId period now rows events) : Undisturbed orgId period now events ∧
      Fits orgId period now (rows ++ beforeStatement events) := by
  obtain ⟨summary, hphase, hagree⟩ := hagrees
  obtain ⟨buckets, byModel, hbuckets, hmodels, rfl⟩ := (phase_run_eq_ok_iff h).mp hphase
  obtain ⟨hhour, rfl⟩ := bucketStatement_eq_ok_iff.mp hbuckets
  obtain ⟨hmodel, rfl⟩ := modelStatement_eq_ok_iff.mp hmodels
  -- each view counts the rows that its own statement has seen
  have hrequests := hagree.modelRequests
  rw [requests_sorted, selected_append, List.length_append, totalsOf_eq] at hrequests
  dsimp only at hrequests
  rw [requests_bucketsOf] at hrequests
  have hnil : selected orgId (since period now) (beforeStatement (afterStatement events)) = [] :=
    List.length_eq_zero_iff.mp (by omega)
  rw [selected_append, hnil, List.append_nil] at hmodel
  exact ⟨undisturbed_iff.mpr hnil, hhour, hmodel⟩

/-- The views agree exactly if no row of theirs is committed between the statements and no sum is
too large for its cast. -/
theorem agrees_iff (h : 2 ≤ events.countP Event.isStatement) :
    Agrees orgId period now rows events ↔ Undisturbed orgId period now events ∧
      Fits orgId period now (rows ++ beforeStatement events) := by
  refine ⟨of_agrees h, fun ⟨hundisturbed, hhour, hmodel⟩ => ?_⟩
  have hselected : selected orgId (since period now) (rows ++ beforeStatement events ++
      beforeStatement (afterStatement events)) =
      selected orgId (since period now) (rows ++ beforeStatement events) := by
    rw [selected_append, undisturbed_iff.mp hundisturbed, List.append_nil]
  refine ⟨_, (phase_run_eq_ok_iff h).mpr ⟨_, _, bucketStatement_eq_ok_iff.mpr ⟨hhour, rfl⟩,
    modelStatement_eq_ok_iff.mpr ⟨by rwa [hselected], rfl⟩, rfl⟩, ?_⟩
  obtain ⟨past, future, hevents, hopen, hrows⟩ :=
    @exists_state orgId period now rows events (Nat.lt_of_lt_of_le Nat.zero_lt_two h)
  constructor
  case hours => exact hourMs_dvd_bucketsOf _
  case ascending => exact ascending_bucketsOf _
  case covers => exact ⟨past, future, hevents, hopen, hrows ▸ covers_bucketsOf _⟩
  case requests => rw [totalsOf_eq]
  case tokens => rw [totalsOf_eq]
  case cost => rw [totalsOf_eq]
  case modelRequests =>
    dsimp only
    rw [requests_sorted, hselected, totalsOf_eq, requests_bucketsOf]
  case modelCost =>
    dsimp only
    rw [costUsd_sorted, hselected, totalsOf_eq, costUsd_bucketsOf]

/-- An insert before the statements, and one of another org between them. -/
theorem agrees_iff_otherOrg :
    Agrees "a" .day 0 [] [.commit ⟨"a", "gpt-4o", 7, 12, 1 / 1000, 0⟩, .statement,
        .commit ⟨"b", "gpt-4o", 7, 12, 1 / 1000, 0⟩, .statement] ↔
      Undisturbed "a" .day 0 [.commit ⟨"a", "gpt-4o", 7, 12, 1 / 1000, 0⟩, .statement,
          .commit ⟨"b", "gpt-4o", 7, 12, 1 / 1000, 0⟩, .statement] ∧
        Fits "a" .day 0 [⟨"a", "gpt-4o", 7, 12, 1 / 1000, 0⟩] :=
  agrees_iff (by decide)

/-- An insert between the statements, and two rows of one hour with three billion tokens. -/
theorem agrees_fails :
    ¬Agrees "a" .day 0 []
        [.statement, .commit ⟨"a", "gpt-4o", 7, 12, 1 / 1000, 0⟩, .statement] ∧
      ¬Agrees "a" .day 0 [⟨"a", "gpt-4o", 1500000000, 12, 7500, 0⟩,
        ⟨"a", "gpt-4o", 1500000000, 12, 7500, 0⟩] [.statement, .statement] := by
  constructor
  · intro h
    have hundisturbed := (of_agrees (by decide) h).1
    exact hundisturbed _ List.mem_cons_self ⟨rfl, by decide⟩
  · intro h
    have hfits := (of_agrees (by decide) h).2
    exact absurd (hfits.hour 0) (by decide)

end Runs

end CloudMesh.Analytics
