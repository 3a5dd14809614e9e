import CloudMesh.Gateway.Routes

/-!
# What the programs of one org can touch

Every command that a program of an org issues, whatever it is answered, is on the org's own keys,
channels and rows. The keys and channels of two orgs are disjoint.

## Main definitions

- `KeyOf`, `ChannelOf` — the keys and channels of an org
- `Cmd.OwnedBy` — the commands that stay within an org
- `Routine` — those of them that are no provider call, bill nothing and store no result
- `Recordless` — those of them that store no idempotency record
- `handler_confined` — every program stays within its org
-/

namespace CloudMesh.Gateway

open Concurrent CircuitBreaker

/-! ## Keys and channels -/

/-- What the encoders put in front of the org. -/
def keyPrefixes : List String :=
  ["idempotency:", "dedup:", "feature_flags:", "billing:lock:", "cache_stats:", "routing:ab:",
    "events:degraded:"]

def KeyOf (orgId : OrgId) (key : String) : Prop :=
  ∃ pre ∈ keyPrefixes, ∃ rest, key = pre ++ (orgId.text ++ rest)

def ChannelOf (orgId : OrgId) (channel : String) : Prop :=
  ∃ promptHash, channel = resultChannel (dedupName orgId promptHash)

/-- The texts of uuids have one length, so that what follows an org in a key is read back. -/
theorem Uuid.text_append_inj {a b : Uuid} {x y : String} (h : a.text ++ x = b.text ++ y) :
    a = b ∧ x = y := by
  have hlist := congrArg String.toList h
  rw [String.toList_append, String.toList_append] at hlist
  obtain ⟨ht, hr⟩ := List.append_inj hlist (a.length_text.trans b.length_text.symm)
  refine ⟨?_, String.toList_inj.mp hr⟩
  cases a
  cases b
  cases String.toList_inj.mp ht
  rfl

/-- No prefix of a key is the beginning of another one. -/
theorem eq_of_mem_keyPrefixes : ∀ a ∈ keyPrefixes, ∀ b ∈ keyPrefixes,
    a.toList.isPrefixOf b.toList → a = b := by
  decide

/-- **No key belongs to two orgs.** -/
theorem KeyOf.unique {a b : OrgId} {key : String} (ha : KeyOf a key) (hb : KeyOf b key) :
    a = b := by
  obtain ⟨p, hp, x, rfl⟩ := ha
  obtain ⟨q, hq, y, heq⟩ := hb
  have hlist := congrArg String.toList heq
  simp only [String.toList_append] at hlist
  have hpre : p = q := by
    rcases List.prefix_or_prefix_of_prefix ⟨_, rfl⟩ ⟨_, hlist.symm⟩ with h | h
    · exact eq_of_mem_keyPrefixes p hp q hq (List.isPrefixOf_iff_prefix.mpr h)
    · exact (eq_of_mem_keyPrefixes q hq p hp (List.isPrefixOf_iff_prefix.mpr h)).symm
  subst hpre
  have hrest := List.append_cancel_left hlist
  simp only [← String.toList_append] at hrest
  exact (Uuid.text_append_inj (String.toList_inj.mp hrest)).1

/-- Prompts are coalesced within one org only. -/
theorem dedupName_inj {a b : OrgId} {x y : String} (h : dedupName a x = dedupName b y) :
    a = b ∧ x = y := by
  simp only [dedupName, String.append_assoc] at h
  obtain ⟨rfl, hrest⟩ := Uuid.text_append_inj h
  have hlist := congrArg String.toList hrest
  simp only [String.toList_append, List.append_cancel_left_eq] at hlist
  exact ⟨rfl, String.toList_inj.mp hlist⟩

/-- Every key has a channel of its own. -/
theorem resultChannel_injective : Function.Injective resultChannel := by
  intro a b h
  have hlist := congrArg String.toList h
  simp only [resultChannel, String.toList_append, List.append_cancel_left_eq] at hlist
  exact String.toList_inj.mp hlist

/-- **No channel belongs to two orgs.** -/
theorem ChannelOf.unique {a b : OrgId} {channel : String} (ha : ChannelOf a channel)
    (hb : ChannelOf b channel) : a = b := by
  obtain ⟨x, rfl⟩ := ha
  obtain ⟨y, heq⟩ := hb
  exact (dedupName_inj (resultChannel_injective heq)).1

section Keys

variable (orgId : OrgId)

theorem keyOf_idempotencyKey (key : String) : KeyOf orgId (idempotencyKey orgId key) :=
  ⟨"idempotency:", by simp [keyPrefixes], ":" ++ key,
    by simp only [idempotencyKey, String.append_assoc]⟩

theorem keyOf_dedupKey (promptHash : String) :
    KeyOf orgId (dedupKey (dedupName orgId promptHash)) :=
  ⟨"dedup:", by simp [keyPrefixes], ":" ++ promptHash, by
    simp only [dedupKey, dedupName, String.append_assoc]⟩

theorem keyOf_flagsKey : KeyOf orgId (flagsKey orgId) :=
  ⟨"feature_flags:", by simp [keyPrefixes], "", by simp only [flagsKey, String.append_empty]⟩

theorem keyOf_lockKeyFor (period : String) :
    KeyOf orgId (lockKeyFor (orgId.text ++ ":" ++ period)) :=
  ⟨"billing:lock:", by simp [keyPrefixes], ":" ++ period,
    by simp only [lockKeyFor, String.append_assoc]⟩

theorem keyOf_statsKey (outcome : String) : KeyOf orgId (statsKey orgId outcome) :=
  ⟨"cache_stats:", by simp [keyPrefixes], ":" ++ outcome, by
    simp only [statsKey, String.append_assoc]⟩

theorem keyOf_abCountKey (model : String) : KeyOf orgId (abCountKey orgId model) :=
  ⟨"routing:ab:", by simp [keyPrefixes], ":" ++ model, by
    simp only [abCountKey, String.append_assoc]⟩

theorem keyOf_degradedKey (provider : String) : KeyOf orgId (degradedKey orgId provider) :=
  ⟨"events:degraded:", by simp [keyPrefixes], ":" ++ provider, by
    unfold degradedKey
    rw [String.append_assoc, String.append_assoc]⟩

variable {orgId} in
/-- The keys of different kinds differ. -/
theorem dedupKey_ne_idempotencyKey (key name : String) :
    idempotencyKey orgId key ≠ dedupKey name := by
  intro h
  have hlist := congrArg String.toList h
  simp [idempotencyKey, dedupKey, String.toList_append] at hlist

variable {orgId} in
theorem dedupKey_ne_flagsKey (name : String) : flagsKey orgId ≠ dedupKey name := by
  intro h
  have hlist := congrArg String.toList h
  simp [flagsKey, dedupKey, String.toList_append] at hlist

theorem idempotencyKey_ne_flagsKey (other : OrgId) (key : String) :
    flagsKey other ≠ idempotencyKey orgId key := by
  intro h
  have hlist := congrArg String.toList h
  simp [flagsKey, idempotencyKey, String.toList_append] at hlist

end Keys

/-! ## Commands -/

/-- The org keeps the value under the key. -/
def RedisValue.KeptAt (orgId : OrgId) (key : String) : RedisValue → Prop
  | .flags _ => key = flagsKey orgId
  | .response _ => ∃ promptHash, key = dedupKey (dedupName orgId promptHash)
  | .record _ => ∃ idempotencyHeader, key = idempotencyKey orgId idempotencyHeader
  | .text _ | .count _ | .processing => False

theorem RedisValue.KeptAt.keyOf {orgId : OrgId} {key : String} {value : RedisValue}
    (h : value.KeptAt orgId key) : KeyOf orgId key := by
  cases value with
  | flags =>
    obtain rfl := h
    exact keyOf_flagsKey orgId
  | response =>
    obtain ⟨promptHash, rfl⟩ := h
    exact keyOf_dedupKey orgId promptHash
  | record =>
    obtain ⟨idempotencyHeader, rfl⟩ := h
    exact keyOf_idempotencyKey orgId idempotencyHeader
  | text | count | processing => exact h.elim

/-- The command stays within the org. -/
def Cmd.OwnedBy (orgId : OrgId) : Cmd → Prop
  | .redisGet key | .redisSetNx key .. | .redisIncr key | .evalRelease key _ => KeyOf orgId key
  | .redisSet key value _ => value.KeptAt orgId key
  | .redisDel key => ∃ promptHash, key = dedupKey (dedupName orgId promptHash)
  | .redisMGet keys => ∀ key ∈ keys, KeyOf orgId key
  | .publish channel _ | .subscribe channel | .awaitMessage channel _ => ChannelOf orgId channel
  | .findOrganization id | .sumUsage id _ | .findExact id .. | .findNearest id ..
  | .insertCache id .. | .deleteCache id _ | .createJobRow id .. | .findJob id _ | .findJobs id ..
  | .updateJob id .. | .queueTake id => id = orgId
  | .insertUsage params _ => params.orgId = orgId
  | .writeOutboxEvent event => event.orgId = orgId
  | .queueAdd data _ => data.orgId = orgId
  | .queueComplete entry | .queueFail entry => entry.data.orgId = orgId
  | _ => True

/-- The command makes, changes or moves a job. -/
def Cmd.isJob : Cmd → Bool
  | .createJobRow .. | .updateJob .. | .queueAdd .. | .queueTake _ | .queueComplete _
  | .queueFail _ | .publishJobProgress _ | .writeOutboxEvent (.jobCompleted ..) => true
  | _ => false

/-- Nothing that calls a provider, bills, works on a job, or makes a result known to others. -/
def Cmd.isRoutine : Cmd → Bool
  | .chat .. | .streamOpen .. | .streamRest .. | .insertUsage .. | .publish ..
  | .createJobRow .. | .updateJob .. | .queueAdd .. | .queueTake _ | .queueComplete _
  | .queueFail _ | .publishJobProgress _ | .writeOutboxEvent (.jobCompleted ..)
  | .redisSet _ (.response _) _ | .redisSet _ (.record _) _
  | .redisSetNx _ (.response _) _ | .redisSetNx _ (.record _) _
  | .writeOutboxEvent (.usageRecorded ..) => false
  | _ => true

def Routine (orgId : OrgId) (c : Cmd) : Prop := c.OwnedBy orgId ∧ c.isRoutine = true

/-- The command reads or writes what an org has spent, or caches its flags. -/
def Cmd.isAccounting : Cmd → Bool
  | .sumUsage .. | .insertUsage .. | .redisSet _ (.flags _) _ | .redisSetNx _ (.flags _) _ => true
  | _ => false

/-- Routine that has nothing to do with budgets. -/
def Ordinary (orgId : OrgId) (c : Cmd) : Prop := Routine orgId c ∧ c.isAccounting = false

/-- The commands that choose among models. -/
def Cmd.isRouting : Cmd → Bool
  | .random | .hgetState _ | .getProviderStats _ => true
  | _ => false

/-- The commands around a provider call. -/
def Cmd.isResilience : Cmd → Bool
  | .dateNow | .random | .sleep _ | .evalAttempt .. | .evalReport .. | .recordProviderOutcome .. =>
    true
  | _ => false

/-- The commands that compare the spend with the budget, under the lock. -/
def Cmd.checksBudget : Cmd → Bool
  | .dateNow | .sleep _ | .randomUUID | .redisSetNx _ (.text _) _ | .evalRelease ..
  | .findOrganization _ | .findBillingPlan _ | .sumUsage ..
  | .writeOutboxEvent (.budgetExceeded ..) => true
  | _ => false

def Checking (orgId : OrgId) (c : Cmd) : Prop := c.OwnedBy orgId ∧ c.checksBudget = true

/-- The record of a request is written. -/
def Cmd.storesRecord : Cmd → Bool
  | .redisSet _ (.record _) _ | .redisSetNx _ (.record _) _ => true
  | _ => false

/-- What a request may do. -/
def Requesting (orgId : OrgId) (c : Cmd) : Prop := c.OwnedBy orgId ∧ c.isJob = false

/-- What serves a request that has been let through. -/
def Serving (orgId : OrgId) (c : Cmd) : Prop := Requesting orgId c ∧ c.isAccounting = false

def Recordless (orgId : OrgId) (c : Cmd) : Prop := c.OwnedBy orgId ∧ c.storesRecord = false

/-- Routine, and what makes a job or puts it into the queue again. -/
def Cmd.isSubmission : Cmd → Bool
  | .createJobRow .. | .queueAdd .. | .updateJob _ _ (.enqueued _) | .updateJob _ _ .requeued =>
    true
  | c => c.isRoutine

def Submitting (orgId : OrgId) (c : Cmd) : Prop := c.OwnedBy orgId ∧ c.isSubmission = true

/-- Of the jobs, the command concerns the given one only, and it neither ends nor moves it. -/
def Cmd.WorksOn (orgId : OrgId) (id : Uuid) : Cmd → Prop
  | .updateJob org jobId (.running _) | .updateJob org jobId (.progress _) =>
    org = orgId ∧ jobId = id
  | .publishJobProgress event => event.jobId = id ∧ event.status = .running
  | c => c.isJob = false

/-- What an attempt on a job may do before the job is completed. -/
def Working (orgId : OrgId) (id : Uuid) (c : Cmd) : Prop :=
  Recordless orgId c ∧ c.WorksOn orgId id

/-- The commands that route a request. -/
inductive Cmd.Routes (orgId : OrgId) : Cmd → Prop
  | getFlags : Routes orgId (.redisGet (flagsKey orgId))
  | setFlags (flags : OrgFeatureFlags) (ttlMs : ℕ) :
      Routes orgId (.redisSet (flagsKey orgId) (.flags flags) ttlMs)
  | checking {c : Cmd} (h : Checking orgId c) : Routes orgId c
  | routing {c : Cmd} (h : c.isRouting = true) : Routes orgId c
  | count (model : String) : Routes orgId (.redisIncr (abCountKey orgId model))
  | warn (spentUsd : ℚ) (budgetUsd : Option ℚ) (remainingFraction : ℚ) :
      Routes orgId (.writeOutboxEvent (.budgetWarning orgId spentUsd budgetUsd remainingFraction))

/-- The commands that coalesce the calls of one key. -/
inductive Cmd.Coalesces (key : String) : Cmd → Prop
  | claim (ttlMs : ℕ) : Coalesces key (.redisSetNx (dedupKey key) .processing ttlMs)
  | look : Coalesces key (.redisGet (dedupKey key))
  | store (response : ChatResponse) (ttlMs : ℕ) :
      Coalesces key (.redisSet (dedupKey key) (.response response) ttlMs)
  | release : Coalesces key (.redisDel (dedupKey key))
  | announce (message : Option ChatResponse) :
      Coalesces key (.publish (resultChannel key) message)
  | subscribe : Coalesces key (.subscribe (resultChannel key))
  | wait (since : ℕ) : Coalesces key (.awaitMessage (resultChannel key) since)

section Rules

variable {P : Cmd → Prop} {α : Type} {c : Cmd}

theorem every_command (h : P c) : Handler.Every P (command c) := ⟨h, fun _ => trivial⟩

/-- Catching a failure issues no further command. -/
theorem every_settle {x : Prog α} (hx : Handler.Every P x) : Handler.Every P (settle x) :=
  (hx.bind fun _ => Handler.every_pure _).tryCatch fun _ => Handler.every_pure _

/-- A decoded read is one command. -/
theorem every_getAs {decode : RedisValue → Option α} {key : String} (h : P (.redisGet key)) :
    Handler.Every P (getAs decode key) := by
  refine (every_command h).bind fun cached => ?_
  cases cached with
  | none => exact Handler.every_pure _
  | some value =>
    dsimp only
    split
    · exact Handler.every_pure _
    · exact Handler.every_throw _

end Rules

section Confined

variable (orgId : OrgId)

/-- What has nothing to do with budgets is routine all the same. -/
theorem Ordinary.routine {α : Type} {x : Prog α} (h : Handler.Every (Ordinary orgId) x) :
    Handler.Every (Routine orgId) x :=
  h.mono fun _ hc => hc.1

section Lock

variable {orgId} {α : Type} {key token : String} {ttlMs : ℕ+} {fn otherwise : Prog α}

/-- The lock is claimed and released on the org's own key, around work of the same kind. -/
theorem lockAttempt_checking (hkey : KeyOf orgId key) (hfn : Handler.Every (Checking orgId) fn)
    (hother : Handler.Every (Checking orgId) otherwise) :
    Handler.Every (Checking orgId) (Lock.lockAttempt lockRedis key token ttlMs fn otherwise) := by
  refine (every_command ⟨hkey, rfl⟩).bind fun acquired => ?_
  cases acquired with
  | false => exact hother
  | true =>
    refine (every_settle hfn).bind fun result => ?_
    refine (every_command ⟨hkey, rfl⟩).bind fun _ => ?_
    cases result with
    | ok a => exact Handler.every_pure _
    | error err => exact Handler.every_throw _

/-- Waiting for the lock only sleeps between the attempts. -/
theorem lockFrom_checking (hkey : KeyOf orgId key) (hfn : Handler.Every (Checking orgId) fn)
    (opts : Lock.DistributedLockOptions) (retries : ℕ) : Handler.Every (Checking orgId)
      (Lock.lockFrom lockRedis key token opts fn (.lockAcquisition key) retries) := by
  induction retries with
  | zero => exact lockAttempt_checking hkey hfn (Handler.every_throw _)
  | succ retries ih =>
    exact lockAttempt_checking hkey hfn ((every_command ⟨trivial, rfl⟩).bind fun _ => ih)

end Lock

/-- The spend is read from the org's own rows. -/
theorem getBudgetStatus_checking : Handler.Every (Checking orgId) (getBudgetStatus orgId) := by
  refine (every_command ⟨trivial, rfl⟩).bind fun now => ?_
  refine (every_command ⟨rfl, rfl⟩).bind fun org => ?_
  cases org with
  | none => exact Handler.every_throw _
  | some org =>
    refine Handler.Every.bind ?_ fun budgetUsd => ?_
    · split
      · exact Handler.every_pure _
      · exact every_command ⟨trivial, rfl⟩
    · refine (every_command ⟨rfl, rfl⟩).bind fun spentUsd => ?_
      cases budgetUsd with
      | none => exact Handler.every_pure _
      | some budgetUsd => exact Handler.every_pure _

/-- The check of the budget takes the org's lock, reads its spend and at most reports it exceeded.
-/
theorem enforceBudget_checking (env : Env) :
    Handler.Every (Checking orgId) (enforceBudget env orgId) := by
  refine (every_command ⟨trivial, rfl⟩).bind fun now => ?_
  refine (every_command ⟨trivial, rfl⟩).bind fun token => ?_
  refine lockFrom_checking (keyOf_lockKeyFor orgId _) ?_ _ _
  refine (getBudgetStatus_checking orgId).bind fun status => ?_
  split
  · exact Handler.every_pure _
  · split
    · exact (every_command ⟨rfl, rfl⟩).bind fun _ => Handler.every_throw _
    · exact Handler.every_pure _

theorem isRoutine_of_checksBudget {c : Cmd} (h : c.checksBudget = true) : c.isRoutine = true := by
  unfold Cmd.checksBudget at h
  split at h <;> first | rfl | cases h

/-- The check of the budget bills nothing and calls no provider. -/
theorem enforceBudget_routine (env : Env) :
    Handler.Every (Routine orgId) (enforceBudget env orgId) :=
  (enforceBudget_checking orgId env).mono fun _ hc => ⟨hc.1, isRoutine_of_checksBudget hc.2⟩

theorem maybePublishBudgetWarning_ordinary (status : BudgetStatus) :
    Handler.Every (Ordinary orgId) (maybePublishBudgetWarning orgId status) := by
  unfold maybePublishBudgetWarning
  split
  · exact Handler.every_pure _
  · exact every_command ⟨⟨rfl, rfl⟩, rfl⟩

/-- The event that a provider is degraded is the org's own, paced by a key of the org. -/
theorem emitProviderDegradedEvent_ordinary (provider reason : String) :
    Handler.Every (Ordinary orgId) (emitProviderDegradedEvent orgId provider reason) := by
  refine Handler.Every.tryCatch ?_ fun _ => Handler.every_pure _
  refine (every_command ⟨⟨keyOf_degradedKey orgId provider, rfl⟩, rfl⟩).bind fun claimed => ?_
  cases claimed with
  | false => exact Handler.every_pure _
  | true =>
    exact (every_command ⟨⟨trivial, rfl⟩, rfl⟩).bind fun _ => every_command ⟨⟨rfl, rfl⟩, rfl⟩

/-- The cache is searched among the org's own entries. -/
theorem lookupCache_ordinary (deps : Deps) (model promptHash promptText : String) (ttlDays : ℕ) :
    Handler.Every (Ordinary orgId)
      (lookupCache deps orgId model promptHash promptText ttlDays) := by
  refine (every_command ⟨⟨rfl, rfl⟩, rfl⟩).bind fun exact => ?_
  cases exact with
  | some response => exact Handler.every_pure _
  | none =>
    refine (every_command ⟨⟨trivial, rfl⟩, rfl⟩).bind fun embedding => ?_
    refine (every_command ⟨⟨rfl, rfl⟩, rfl⟩).bind fun top => ?_
    cases top with
    | none => exact Handler.every_pure _
    | some top =>
      dsimp only
      split <;> exact Handler.every_pure _

theorem recordCacheOutcome_ordinary (outcome : String) :
    Handler.Every (Ordinary orgId) (recordCacheOutcome orgId outcome) :=
  (every_command ⟨⟨keyOf_statsKey orgId outcome, rfl⟩, rfl⟩).bind fun _ => Handler.every_pure _

/-- Counters are read under the given keys only. -/
theorem getCounts_routine {keys : List String} (h : ∀ key ∈ keys, KeyOf orgId key) :
    Handler.Every (Routine orgId) (getCounts keys) :=
  (every_command ⟨h, rfl⟩).bind fun _ => Handler.every_pure _

/-! ## Routing -/

section Routing

variable {P : Cmd → Prop} (hP : ∀ c : Cmd, c.isRouting = true → P c) (toDouble : ℚ → ℚ)
  (registry : ModelRegistry)

include hP

theorem getCircuitState_every (name : String) :
    Handler.Every P (getCircuitState routingRedis name) :=
  (every_command (hP _ rfl)).bind fun _ => Handler.every_pure _

/-- Finding the candidates reads the circuits of their providers. -/
theorem resolveOpenCandidates_every (models : List String) :
    Handler.Every P (resolveOpenCandidates registry routingRedis models) := by
  induction models with
  | nil => exact Handler.every_pure _
  | cons model models ih =>
    unfold resolveOpenCandidates
    cases registry.resolve model with
    | none => exact ih
    | some r =>
      exact (getCircuitState_every hP _).bind fun _ => ih.bind fun _ => Handler.every_pure _

/-- Scoring reads the statistics of the candidates. -/
theorem scoreAll_every (weights : RoutingWeights) (available : List (String × ResolvedModel)) :
    Handler.Every P (scoreAll toDouble routingRedis weights available) := by
  induction available with
  | nil => exact Handler.every_pure _
  | cons c available ih =>
    exact (every_command (hP _ rfl)).bind fun _ => ih.bind fun _ => Handler.every_pure _

/-- An A/B choice reads circuits and draws one number. -/
theorem selectAbVariant_every (abConfig : AbConfig) : Handler.Every P
    (selectAbVariant toDouble registry routingRedis abConfig (command .random)) := by
  refine (resolveOpenCandidates_every hP registry _).bind fun available => ?_
  cases available with
  | nil => exact Handler.every_pure _
  | cons first rest =>
    exact (every_command (hP _ rfl)).bind fun _ => Handler.every_pure _

/-- A scored choice reads circuits and statistics. -/
theorem routeScored_every (env : Env) (modelName : String) (preset : RoutingPreset) :
    Handler.Every P (routeScored toDouble registry routingRedis env modelName preset) := by
  refine Handler.Every.bind ?_ fun scored => ?_
  · exact (resolveOpenCandidates_every hP registry _).bind fun _ =>
      (scoreAll_every hP _ _ _).bind fun _ => Handler.every_pure _
  · cases scored with
    | nil =>
      dsimp only
      split <;> exact Handler.every_throw _
    | cons best rest => exact Handler.every_pure _

/-- **Choosing a model** issues routing commands only. -/
theorem resolveModelWithFallback_every (env : Env) (modelName : String)
    (routing : RoutingOptions) : Handler.Every P
      (resolveModelWithFallback toDouble registry routingRedis env (command .random) modelName
        routing) := by
  unfold resolveModelWithFallback
  split
  · split
    · exact Handler.every_throw _
    · exact Handler.every_pure _
  · split
    · exact routeScored_every hP toDouble registry env _ _
    · refine (selectAbVariant_every hP toDouble registry _).bind fun variant => ?_
      cases variant with
      | some v => exact Handler.every_pure _
      | none => exact routeScored_every hP toDouble registry env _ _

end Routing

theorem resolveModelWithFallback_ordinary (toDouble : ℚ → ℚ) (registry : ModelRegistry) (env : Env)
    (modelName : String) (routing : RoutingOptions) : Handler.Every (Ordinary orgId)
      (resolveModelWithFallback toDouble registry routingRedis env (command .random) modelName
        routing) :=
  resolveModelWithFallback_every
    (fun c hc => by cases c <;> first | exact ⟨⟨trivial, rfl⟩, rfl⟩ | cases hc)
    toDouble registry env _ _

section RouteRequest

variable {orgId} {P : Cmd → Prop} (hP : ∀ c : Cmd, c.Routes orgId → P c)

include hP

/-- The flags are read from the org's cache entry, or from its row and cached. -/
theorem getOrgFeatureFlags_every : Handler.Every P (getOrgFeatureFlags orgId) := by
  have hread : P (.findOrganization orgId) := hP _ (.checking ⟨rfl, rfl⟩)
  refine (every_getAs (hP _ .getFlags)).bind fun cached => ?_
  cases cached with
  | some flags => exact Handler.every_pure _
  | none =>
    exact (every_command hread).bind fun _ =>
      (every_command (hP _ (.setFlags _ _))).bind fun _ => Handler.every_pure _

/-- **Routing a request** reads the flags, checks the budget, chooses a model and counts the choice.
-/
theorem routeRequest_every (deps : Deps) (input : ChatInput) :
    Handler.Every P (routeRequest deps orgId input) := by
  refine (getOrgFeatureFlags_every hP).bind fun flags => ?_
  refine Handler.Every.bind ?_ fun budgetStatus => ?_
  · split
    · exact ((enforceBudget_checking orgId deps.env).mono fun _ hc => hP _ (.checking hc)).bind
        fun _ => Handler.every_pure _
    · exact Handler.every_pure _
  refine (resolveModelWithFallback_every (fun _ hc => hP _ (.routing hc)) _ _ _ _ _).bind
    fun decision => ?_
  refine Handler.Every.bind ?_ fun _ => Handler.Every.bind ?_ fun _ => Handler.every_pure _
  · split
    · exact (every_command (hP _ (.count _))).bind fun _ => Handler.every_pure _
    · exact Handler.every_pure _
  · split
    · unfold maybePublishBudgetWarning
      split
      · exact Handler.every_pure _
      · exact every_command (hP _ (.warn _ _ _))
    · exact Handler.every_pure _

end RouteRequest

/-- Routing stays within the org and bills nothing. -/
theorem routine_of_routes {c : Cmd} (h : c.Routes orgId) : Routine orgId c := by
  cases h with
  | getFlags => exact ⟨keyOf_flagsKey orgId, rfl⟩
  | setFlags => exact ⟨rfl, rfl⟩
  | checking h => exact ⟨h.1, isRoutine_of_checksBudget h.2⟩
  | routing h => cases c <;> first | exact ⟨trivial, rfl⟩ | cases h
  | count => exact ⟨keyOf_abCountKey orgId _, rfl⟩
  | warn => exact ⟨rfl, rfl⟩

theorem getOrgFeatureFlags_routine : Handler.Every (Routine orgId) (getOrgFeatureFlags orgId) :=
  getOrgFeatureFlags_every fun _ => routine_of_routes orgId

theorem routeRequest_routine (deps : Deps) (input : ChatInput) :
    Handler.Every (Routine orgId) (routeRequest deps orgId input) :=
  routeRequest_every (fun _ => routine_of_routes orgId) deps input

/-! ## Provider calls -/

/-- Routine work touches no job. -/
theorem isJob_of_isRoutine {c : Cmd} (h : c.isRoutine = true) : c.isJob = false := by
  unfold Cmd.isJob
  split <;> first | rfl | cases h

theorem Routine.requesting {α : Type} {x : Prog α} (h : Handler.Every (Routine orgId) x) :
    Handler.Every (Requesting orgId) x :=
  h.mono fun _ hc => ⟨hc.1, isJob_of_isRoutine hc.2⟩

theorem Ordinary.serving {α : Type} {x : Prog α} (h : Handler.Every (Ordinary orgId) x) :
    Handler.Every (Serving orgId) x :=
  h.mono fun _ hc => ⟨⟨hc.1.1, isJob_of_isRoutine hc.1.2⟩, hc.2⟩

theorem Serving.requesting {α : Type} {x : Prog α} (h : Handler.Every (Serving orgId) x) :
    Handler.Every (Requesting orgId) x :=
  h.mono fun _ hc => hc.1

/-- Routine work stores no record. -/
theorem storesRecord_of_isRoutine {c : Cmd} (h : c.isRoutine = true) : c.storesRecord = false := by
  unfold Cmd.storesRecord
  split
  · cases h
  · cases h
  · rfl

theorem Routine.recordless {α : Type} {x : Prog α} (h : Handler.Every (Routine orgId) x) :
    Handler.Every (Recordless orgId) x :=
  h.mono fun _ hc => ⟨hc.1, storesRecord_of_isRoutine hc.2⟩

section Resilience

variable {P : Cmd → Prop} (hP : ∀ c : Cmd, c.isResilience = true → P c) {α : Type} {env : Env}
  {fn : Prog α} (hfn : Handler.Every P fn)

include hP hfn

/-- Around the call, the breaker asks the clock and the circuit and reports back. -/
theorem callThroughBreaker_every (name : String) :
    Handler.Every P (callThroughBreaker env name fn) := by
  refine (every_command (hP _ rfl)).bind fun now => ?_
  refine (every_command (hP _ rfl)).bind fun answer => ?_
  obtain ⟨allowed, state⟩ := answer
  cases allowed with
  | false => exact Handler.every_throw _
  | true =>
    exact Handler.Every.tryCatch
      (hfn.bind fun _ => (every_command (hP _ rfl)).bind fun _ => Handler.every_pure _)
      fun _ => (every_command (hP _ rfl)).bind fun _ => Handler.every_throw _

/-- Between two attempts a retry draws its jitter and sleeps. -/
theorem retryFrom_every (shouldRetry : Thrown → Bool) (attemptsLeft attempt : ℕ) :
    Handler.Every P (retryFrom env fn shouldRetry attempt attemptsLeft) := by
  induction attemptsLeft generalizing attempt with
  | zero => exact hfn
  | succ attemptsLeft ih =>
    refine hfn.tryCatch fun err => ?_
    split
    · exact (every_command (hP _ rfl)).bind fun _ => (every_command (hP _ rfl)).bind fun _ => ih _
    · exact Handler.every_throw _

/-- **The resilience layer** adds the breaker, the retries and the statistics to the commands of the
call. -/
theorem callProviderResilientWithStats_every (name : String) :
    Handler.Every P (callProviderResilientWithStats env name fn) := by
  refine (every_command (hP _ rfl)).bind fun start => Handler.Every.tryCatch ?_ fun err => ?_
  · refine Handler.Every.bind ?_ fun _ => (every_command (hP _ rfl)).bind fun _ =>
      (every_command (hP _ rfl)).bind fun _ => Handler.every_pure _
    refine (retryFrom_every hP (callThroughBreaker_every hP hfn name) _ _ _).tryCatch fun err => ?_
    split <;> exact Handler.every_throw _
  · split
    · exact Handler.every_throw _
    · exact (every_command (hP _ rfl)).bind fun _ =>
        (every_command (hP _ rfl)).bind fun _ => Handler.every_throw _

end Resilience

theorem callProviderResilientWithStats_serving {α : Type} {env : Env} {fn : Prog α} (name : String)
    (hfn : Handler.Every (Serving orgId) fn) :
    Handler.Every (Serving orgId) (callProviderResilientWithStats env name fn) :=
  callProviderResilientWithStats_every
    (fun c hc => by cases c <;> first | exact ⟨⟨trivial, rfl⟩, rfl⟩ | cases hc) hfn name

section Dedup

variable {P : Cmd → Prop} {key : String} (hP : ∀ c : Cmd, c.Coalesces key → P c) {env : Env}
  {fn : Prog ChatResponse} (hfn : Handler.Every P fn)

include hP

theorem getDedupResult_every : Handler.Every P (getDedupResult key) :=
  (every_getAs (hP _ .look)).bind fun _ => Handler.every_pure _

include hfn

/-- A follower subscribes, looks once more and waits, or calls for itself. -/
theorem waitForLeader_every : Handler.Every P (waitForLeader key fn) := by
  refine Handler.Every.tryCatch ?_ fun _ => hfn
  refine (every_command (hP _ .subscribe)).bind fun since => ?_
  refine (getDedupResult_every hP).bind fun recheck => ?_
  cases recheck with
  | some r => exact Handler.every_pure _
  | none =>
    refine (every_command (hP _ (.wait _))).bind fun message => ?_
    rcases message with _ | _ | r
    · exact Handler.every_throw _
    · exact Handler.every_throw _
    · exact Handler.every_pure _

/-- **Coalescing** adds the commands on its key and channel to those of the call. -/
theorem withRequestDedup_every : Handler.Every P (withRequestDedup env key fn) := by
  refine (every_command (hP _ (.claim _))).bind fun claimed => ?_
  cases claimed with
  | true =>
    exact Handler.Every.tryCatch
      (hfn.bind fun _ => (every_command (hP _ (.store _ _))).bind fun _ =>
        (every_command (hP _ (.announce _))).bind fun _ => Handler.every_pure _)
      fun _ => (every_command (hP _ .release)).bind fun _ =>
        (every_command (hP _ (.announce _))).bind fun _ => Handler.every_throw _
  | false =>
    refine (getDedupResult_every hP).bind fun existing => ?_
    cases existing with
    | some r => exact Handler.every_pure _
    | none => exact waitForLeader_every hP hfn

end Dedup

/-- Coalescing within an org stays within the org. -/
theorem serving_of_coalesces {promptHash : String} {c : Cmd}
    (h : c.Coalesces (dedupName orgId promptHash)) : Serving orgId c := by
  have hkey := keyOf_dedupKey orgId promptHash
  cases h with
  | claim | look => exact ⟨⟨hkey, rfl⟩, rfl⟩
  | store | release => exact ⟨⟨⟨promptHash, rfl⟩, rfl⟩, rfl⟩
  | announce | subscribe | wait => exact ⟨⟨⟨promptHash, rfl⟩, rfl⟩, rfl⟩

/-! ## Requests -/

section Requests

variable (deps : Deps) (input : ChatInput)

section Routed

variable (r : Routed)

/-- A provider call, coalesced or not, only serves the request. -/
theorem runChat_serving : Handler.Every (Serving orgId) (runChat deps orgId input r) := by
  have hcall : Handler.Every (Serving orgId) (callProviderResilientWithStats deps.env
      r.resolved.provider.name (command (.chat r.resolved.provider (providerReq input r)))) :=
    callProviderResilientWithStats_serving _ _ (every_command ⟨⟨trivial, rfl⟩, rfl⟩)
  unfold runChat
  dsimp only
  split
  · exact withRequestDedup_every (fun _ => serving_of_coalesces orgId) hcall
  · exact hcall

/-- The cache is searched before the call and filled after it, for the org. -/
theorem answerChat_serving : Handler.Every (Serving orgId) (answerChat deps orgId input r) := by
  have hrun := runChat_serving orgId deps input r
  unfold answerChat
  split
  · refine (Ordinary.serving _ (lookupCache_ordinary _ deps _ _ _ _)).bind fun cached => ?_
    cases cached with
    | hit response =>
      exact (Ordinary.serving _ (recordCacheOutcome_ordinary _ _)).bind
        fun _ => Handler.every_pure _
    | miss embedding =>
      refine (Ordinary.serving _ (recordCacheOutcome_ordinary _ _)).bind fun _ => ?_
      refine hrun.bind fun response => ?_
      have hstore : Handler.Every (Serving orgId) (storeCache orgId r.resolved.providerModel
          (promptHashOf deps input r) embedding response) := every_command ⟨⟨rfl, rfl⟩, rfl⟩
      exact (hstore.tryCatch fun _ => Handler.every_pure _).bind fun _ => Handler.every_pure _
  · exact hrun.bind fun _ => Handler.every_pure _

/-- The record is stored under the org's key. -/
theorem storeReplay_serving (response : ChatResponse) :
    Handler.Every (Serving orgId) (storeReplay deps orgId input response) := by
  unfold storeReplay
  split
  · exact Handler.every_pure _
  · exact every_command ⟨⟨⟨_, rfl⟩, rfl⟩, rfl⟩

/-- Usage is recorded for the org. -/
theorem recordUsage_requesting (response : ChatResponse) : Handler.Every (Requesting orgId)
    (recordUsageAndOutbox (usageParams orgId input r response)) :=
  every_command ⟨rfl, rfl⟩

/-- A whole answer stays within the org: its serving, its bill and its record. -/
theorem completeChat_requesting :
    Handler.Every (Requesting orgId) (completeChat deps orgId input r) := by
  refine (every_settle (Serving.requesting _ (answerChat_serving orgId deps input r))).bind
    fun answer => ?_
  rcases answer with err | ⟨response, fromCache⟩
  · dsimp only
    split
    · exact Handler.every_throw _
    · exact (Serving.requesting _
        (Ordinary.serving _ (emitProviderDegradedEvent_ordinary _ _ _))).bind
          fun _ => Handler.every_pure _
  · refine Handler.Every.bind ?_ fun _ =>
      (Serving.requesting _ (storeReplay_serving orgId deps input response)).bind
        fun _ => Handler.every_pure _
    split
    · exact Handler.every_pure _
    · exact (recordUsage_requesting orgId input r response).bind fun _ => Handler.every_pure _

theorem streamOpen_serving : Handler.Every (Serving orgId) (callProviderResilientWithStats deps.env
    r.resolved.provider.name (command (.streamOpen r.resolved.provider (providerReq input r)))) :=
  callProviderResilientWithStats_serving _ _ (every_command ⟨⟨trivial, rfl⟩, rfl⟩)

/-- So does a streamed one. -/
theorem streamChat_requesting :
    Handler.Every (Requesting orgId) (streamChat deps orgId input r) := by
  refine (every_settle (Serving.requesting _ (streamOpen_serving orgId deps input r))).bind
    fun first => ?_
  rcases first with err | _ | chunk
  · dsimp only
    split <;> first | exact Handler.every_throw _ | exact Handler.every_pure _
  · exact Handler.every_pure _
  · refine (every_command ⟨trivial, rfl⟩).bind fun answer => ?_
    obtain ⟨rest, error⟩ := answer
    cases error with
    | some error => exact Handler.every_pure _
    | none =>
      exact (recordUsage_requesting orgId input r _).bind fun _ =>
        (Serving.requesting _ (storeReplay_serving orgId deps input _)).bind fun _ =>
          Handler.every_pure _

end Routed

/-- **A request** stays within its org and touches no job. -/
theorem chat_requesting : Handler.Every (Requesting orgId) (chat deps orgId input) := by
  have hanswer : Handler.Every (Requesting orgId) (answerRequest deps orgId input) := by
    refine (Routine.requesting _ (routeRequest_routine orgId deps input)).bind fun r => ?_
    split
    · exact streamChat_requesting orgId deps input r
    · exact completeChat_requesting orgId deps input r
  unfold chat
  split
  · exact hanswer
  · refine (every_getAs ⟨keyOf_idempotencyKey _ _, rfl⟩).bind fun replay => ?_
    cases replay with
    | some record => exact Handler.every_pure _
    | none => exact hanswer

end Requests

/-! ## Jobs -/

section Jobs

variable (deps : Deps)

/-- A change of a row fails when the row is not there. -/
theorem updateRow_every {P : Cmd → Prop} {id : Uuid} {update : JobUpdate}
    (h : P (.updateJob orgId id update)) : Handler.Every P (updateRow orgId id update) := by
  refine Handler.Every.bind (every_command h) fun found => ?_
  cases found with
  | true => exact Handler.every_pure _
  | false => exact Handler.every_throw _

theorem isSubmission_of_isRoutine {c : Cmd} (h : c.isRoutine = true) : c.isSubmission = true := by
  unfold Cmd.isSubmission
  split <;> first | rfl | exact h

/-- Submitting a job stores no record. -/
theorem storesRecord_of_isSubmission {c : Cmd} (h : c.isSubmission = true) :
    c.storesRecord = false := by
  unfold Cmd.isSubmission at h
  split at h
  · rfl
  · rfl
  · rfl
  · rfl
  · exact storesRecord_of_isRoutine h

theorem Routine.submitting {α : Type} {x : Prog α} (h : Handler.Every (Routine orgId) x) :
    Handler.Every (Submitting orgId) x :=
  h.mono fun _ hc => ⟨hc.1, isSubmission_of_isRoutine hc.2⟩

theorem Submitting.recordless {α : Type} {x : Prog α} (h : Handler.Every (Submitting orgId) x) :
    Handler.Every (Recordless orgId) x :=
  h.mono fun _ hc => ⟨hc.1, storesRecord_of_isSubmission hc.2⟩

/-- A job is put into the queue before its row is marked. -/
theorem enqueue_submitting (id : Uuid) (type : String) (priority : ℕ) :
    Handler.Every (Submitting orgId) (enqueue orgId id type priority) :=
  Handler.Every.bind (every_command ⟨rfl, rfl⟩) fun _ => updateRow_every orgId ⟨rfl, rfl⟩

/-- A job is created after the budget check, for the org. -/
theorem createJob_submitting (input : CreateJobInput) :
    Handler.Every (Submitting orgId) (createJob deps orgId input) := by
  refine (Routine.submitting _ (getOrgFeatureFlags_routine orgId)).bind fun flags => ?_
  refine Handler.Every.bind ?_ fun _ => ?_
  · split
    · exact (Routine.submitting _ (enforceBudget_routine orgId deps.env)).bind fun _ =>
        Handler.every_pure _
    · exact Handler.every_pure _
  · exact Handler.Every.bind (every_command ⟨rfl, rfl⟩) fun id =>
      (enqueue_submitting orgId id _ _).bind fun _ => Handler.every_pure _

theorem getJob_routine (id : Uuid) : Handler.Every (Routine orgId) (getJob orgId id) := by
  refine Handler.Every.bind (every_command ⟨rfl, rfl⟩) fun job => ?_
  cases job with
  | none => exact Handler.every_throw _
  | some row => exact Handler.every_pure _

/-- A replay reads the job, resets it and puts it into the queue again. -/
theorem replayJob_submitting (id : Uuid) :
    Handler.Every (Submitting orgId) (replayJob orgId id) := by
  refine (Routine.submitting _ (getJob_routine orgId id)).bind fun _ =>
    Handler.Every.bind (every_command ⟨rfl, rfl⟩) fun job => ?_
  cases job with
  | none => exact Handler.every_pure _
  | some job =>
    dsimp only
    split
    · exact Handler.every_throw _
    · exact (updateRow_every orgId ⟨rfl, rfl⟩).bind fun _ =>
        (enqueue_submitting orgId _ _ _).bind fun _ => Handler.every_pure _

/-- The start of an attempt is written on its own job. -/
theorem markJobRunning_working (id : Uuid) (attempt : ℕ) :
    Handler.Every (Working orgId id) (markJobRunning id orgId attempt) :=
  Handler.Every.bind (every_command ⟨⟨rfl, rfl⟩, rfl, rfl⟩) fun _ =>
    every_command ⟨⟨trivial, rfl⟩, rfl, rfl⟩

theorem markJobFailed_recordless (id : Uuid) (message : String) (isFinalAttempt : Bool) :
    Handler.Every (Recordless orgId) (markJobFailed id orgId message isFinalAttempt) :=
  Handler.Every.bind (every_command ⟨rfl, rfl⟩) fun _ => every_command ⟨trivial, rfl⟩

section Worker

variable (ctx : JobHandlerContext)

/-- Progress is written on the job that makes it. -/
theorem reportProgress_working (done total : ℕ) : Handler.Every
    (Working ctx.orgId ctx.jobRecordId) (reportProgress deps ctx done total) :=
  Handler.Every.bind (every_command ⟨⟨rfl, rfl⟩, rfl, rfl⟩) fun _ =>
    every_command ⟨⟨trivial, rfl⟩, rfl, rfl⟩

/-- After every text, progress is reported. -/
theorem embedFrom_working (total i : ℕ) (texts : List String) : Handler.Every
    (Working ctx.orgId ctx.jobRecordId) (embedFrom deps ctx total i texts) := by
  induction texts generalizing i with
  | nil => exact Handler.every_pure _
  | cons text texts ih =>
    exact Handler.Every.bind (every_command ⟨⟨trivial, rfl⟩, rfl⟩) fun _ =>
      (reportProgress_working deps ctx _ _).bind fun _ =>
        (ih _).bind fun _ => Handler.every_pure _

/-- A prompt of a job is billed to the job's org. -/
theorem billJobUsage_working (model : String) (promptIndex : ℕ) (usage : Usage) : Handler.Every
    (Working ctx.orgId ctx.jobRecordId) (billJobUsage ctx model promptIndex usage) := by
  unfold billJobUsage
  split
  · exact Handler.every_pure _
  · exact Handler.Every.bind (every_command ⟨⟨rfl, rfl⟩, rfl⟩) fun _ => Handler.every_pure _

/-- Every prompt is answered, billed and reported before the next. -/
theorem chatFrom_working (resolved : ResolvedModel) (total i : ℕ) (prompts : List String) :
    Handler.Every (Working ctx.orgId ctx.jobRecordId)
      (chatFrom deps ctx resolved total i prompts) := by
  induction prompts generalizing i with
  | nil => exact Handler.every_pure _
  | cons prompt prompts ih =>
    exact Handler.Every.bind (every_command ⟨⟨trivial, rfl⟩, rfl⟩) fun _ =>
      (billJobUsage_working ctx _ _ _).bind fun _ =>
        (reportProgress_working deps ctx _ _).bind fun _ =>
          (ih _).bind fun _ => Handler.every_pure _

/-- **A handler** works on its own job and leaves its end to the worker. -/
theorem runHandler_working (payload : JobPayload) : Handler.Every
    (Working ctx.orgId ctx.jobRecordId) (runHandler deps ctx payload) := by
  cases payload with
  | batchEmbeddings texts =>
    exact (embedFrom_working deps ctx _ _ _).bind fun _ => Handler.every_pure _
  | bulkChat model prompts =>
    unfold runHandler
    dsimp only
    split
    · exact Handler.every_throw _
    · exact (chatFrom_working deps ctx _ _ _ _).bind fun _ => Handler.every_pure _

theorem Working.recordless {id : Uuid} {α : Type} {x : Prog α}
    (h : Handler.Every (Working orgId id) x) : Handler.Every (Recordless orgId) x :=
  h.mono fun _ hc => hc.1

end Worker

/-- An attempt stays within the org of its job. -/
theorem runJob_recordless (entry : QueueEntry) :
    Handler.Every (Recordless entry.data.orgId) (runJob deps entry) := by
  refine (Working.recordless _ (markJobRunning_working _ _ _)).bind fun _ =>
    Handler.Every.bind (every_command ⟨rfl, rfl⟩) fun row => ?_
  cases row with
  | none => exact Handler.every_throw _
  | some row =>
    exact (Working.recordless _
      (runHandler_working deps ⟨_, entry.data.orgId, row.apiKeyId⟩ _)).bind fun _ =>
      (updateRow_every _ ⟨rfl, rfl⟩).bind fun _ => every_command ⟨trivial, rfl⟩

/-- The worker takes, runs and ends a job of one org. -/
theorem processJob_recordless : Handler.Every (Recordless orgId) (processJob deps orgId) := by
  refine Handler.Every.bind (every_command ⟨rfl, rfl⟩) fun taken => ?_
  obtain ⟨entry, rfl⟩ := taken
  refine (every_settle (runJob_recordless deps entry)).bind fun result => ?_
  cases result with
  | ok a => exact every_command ⟨rfl, rfl⟩
  | error err =>
    exact Handler.Every.bind (every_command ⟨rfl, rfl⟩) fun _ =>
      (every_settle (markJobFailed_recordless _ _ _ _)).bind fun _ => Handler.every_pure _

end Jobs

/-- Operations that only read, count or flush. -/
def Op.isPlain : Op → Bool
  | .chat _ | .createJob _ | .replayJob _ | .processJob => false
  | _ => true

/-- Operations that only read, count or flush are routine. -/
theorem handler_routine (deps : Deps) (op : Op) (hop : op.isPlain = true) :
    Handler.Every (Routine orgId) (handler deps orgId op) := by
  cases op with
  | chat | createJob | replayJob | processJob => cases hop
  | cacheStats =>
    refine Handler.Every.map _ (Handler.Every.bind ?_ fun _ => Handler.every_pure _)
    refine (getCounts_routine orgId ?_).bind fun _ => Handler.every_pure _
    simp [keyOf_statsKey]
  | deleteCache keepModel =>
    exact Handler.Every.map _
      (Handler.Every.bind (every_command ⟨rfl, rfl⟩) fun _ => Handler.every_pure _)
  | abStats =>
    refine Handler.Every.map _ ?_
    refine (getOrgFeatureFlags_routine orgId).bind fun flags => ?_
    split
    · exact Handler.every_pure _
    · refine Handler.Every.bind ?_ fun _ => Handler.every_pure _
      unfold getAbStats
      dsimp only
      split
      · exact Handler.every_pure _
      · refine (getCounts_routine orgId fun key hkey => ?_).bind fun _ => Handler.every_pure _
        obtain ⟨model, -, rfl⟩ := List.mem_map.mp hkey
        exact keyOf_abCountKey orgId model
  | listJobs status limit =>
    exact Handler.Every.map _
      (Handler.Every.bind (every_command ⟨rfl, rfl⟩) fun _ => Handler.every_pure _)
  | getJob id =>
    exact Handler.Every.map _ ((getJob_routine orgId id).bind fun _ => Handler.every_pure _)

/-- Only requests store idempotency records. -/
theorem handler_recordless (deps : Deps) (op : Op) (hop : ∀ input, op ≠ .chat input) :
    Handler.Every (Recordless orgId) (handler deps orgId op) := by
  cases op with
  | chat input => exact absurd rfl (hop input)
  | createJob input => exact (Submitting.recordless _ (createJob_submitting orgId deps input)).map _
  | replayJob id => exact (Submitting.recordless _ (replayJob_submitting orgId id)).map _
  | processJob => exact (processJob_recordless orgId deps).bind fun _ => Handler.every_pure _
  | cacheStats | deleteCache | abStats | listJobs | getJob =>
    exact Routine.recordless _ (handler_routine orgId deps _ rfl)

/-- Whatever an org does stays within the org. -/
theorem handler_confined (deps : Deps) (op : Op) :
    Handler.Every (Cmd.OwnedBy orgId) (handler deps orgId op) := by
  by_cases hop : ∀ input, op ≠ .chat input
  · exact (handler_recordless orgId deps op hop).mono fun _ hc => hc.1
  · obtain ⟨input, rfl⟩ := not_forall_not.mp hop
    exact ((chat_requesting orgId deps input).mono fun _ hc => hc.1).map _

end Confined

end CloudMesh.Gateway
