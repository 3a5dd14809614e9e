import CloudMesh.Calendar
import CloudMesh.Concurrent.Transcript
import CloudMesh.Gateway.Store

/-!
# The gateway's library

`apps/gateway/src/lib` as programs over the commands of `Gateway.Store`: feature flags, budgets and
their lock, resilient provider calls, request coalescing, the semantic cache, idempotency records
and usage records. Metrics, traces, logs and live statistics are left out.

## Main definitions

- `enforceBudget`, `recordUsageAndOutbox` — `billing.ts`
- `Lock.withDistributedLock` — `billingLock.ts`, over any two commands that set and release a key
- `callProviderResilientWithStats` — `resilience.ts`
- `withRequestDedup` — `requestDedup.ts`
- `lookupCache`, `storeCache` — `semanticCache.ts`
-/

namespace CloudMesh.Gateway

open Concurrent CircuitBreaker

/-- The environment's variables, SHA-256, pgvector's cosine similarity and the rounding of a number
to a double. -/
structure Deps where
  env : Env
  sha256 : String → String
  similarity : List ℚ → List ℚ → ℚ
  toDouble : ℚ → ℚ

abbrev Prog (α : Type) := Handler sig Thrown α

/-- Issue one command, which may fail. -/
def command (c : sig.Cmd) : Prog (Res c) := ExceptT.mk (.call c)

/-- Both ways in which a program can end, as a value. -/
def settle {α : Type} (x : Prog α) : Prog (Except Thrown α) :=
  tryCatch (do pure (.ok (← x))) fun err => pure (.error err)

section Triples

variable {α : Type} {M : Transcript sig → sig.Cmd → Prop} {P : Transcript sig → Prop}

theorem command_triple {c : Cmd} {Q : Res c → Transcript sig → Prop}
    {E : Thrown → Transcript sig → Prop} (hM : ∀ t, P t → M t c)
    (hok : ∀ t r, P t → Q r (⟨c, .ok r⟩ :: t))
    (herr : ∀ t err, P t → E err (⟨c, .error err⟩ :: t)) :
    Handler.Triple M P (command c) Q E := by
  refine Program.Triple.call hM fun t r ht => ?_
  cases r with
  | ok r => exact hok t r ht
  | error err => exact herr t err ht

theorem settle_triple {x : Prog α} {Q : α → Transcript sig → Prop}
    {E E' : Thrown → Transcript sig → Prop} (hx : Handler.Triple M P x Q E) :
    Handler.Triple M P (settle x)
      (fun r t => match r with | .ok a => Q a t | .error err => E err t) E' :=
  Handler.Triple.tryCatch (hx.bind fun _ => Handler.Triple.pure fun _ h => h)
    fun _ => Handler.Triple.pure fun _ h => h

end Triples

/-- `GET` and `JSON.parse`, which throws if the value is of another kind. -/
def getAs {α : Type} (decode : RedisValue → Option α) (key : String) : Prog (Option α) := do
  let cached ← command (.redisGet key)
  match cached with
  | none => pure none
  | some value =>
    match decode value with
    | some a => pure (some a)
    | none => throw (.error "Unexpected token in JSON")

/-! ## `idempotency.ts` -/

def getIdempotentReplay (orgId : OrgId) (key : String) : Prog (Option IdempotentRecord) :=
  getAs (fun | .record record => some record | _ => none) (idempotencyKey orgId key)

def storeIdempotentResult (orgId : OrgId) (key : String) (record : IdempotentRecord)
    (ttlSeconds : ℕ) : Prog Unit :=
  command (.redisSet (idempotencyKey orgId key) (.record record) (ttlSeconds * 1000))

/-! ## `featureFlags.ts` -/

def getOrgFeatureFlags (orgId : OrgId) : Prog OrgFeatureFlags := do
  let cached ← getAs (fun | .flags flags => some flags | _ => none) (flagsKey orgId)
  match cached with
  | some flags => pure flags
  | none =>
    let org ← command (.findOrganization orgId)
    let flags := (org.map OrgRow.featureFlags).getD .defaults
    command (.redisSet (flagsKey orgId) (.flags flags) 60000)
    pure flags

/-! ## `billingLock.ts` -/

namespace Lock

structure DistributedLockOptions where
  ttlMs : ℕ+
  retries : ℕ
  retryDelayMs : ℕ

/-- `SET key token PX ttlMs NX`, the release script and `sleep`. -/
structure LockRedis (m : Type → Type) where
  setNx : String → String → ℕ+ → m Bool
  evalRelease : String → String → m Unit
  sleep : ℕ → m Unit

section Code

variable {m : Type → Type} [Monad m] {ε : Type} [MonadExcept ε m] {α : Type}

/-- One turn of the loop: `otherwise` is what follows if somebody else holds the key. -/
def lockAttempt (redis : LockRedis m) (key token : String) (ttlMs : ℕ+) (fn otherwise : m α) :
    m α := do
  let acquired ← redis.setNx key token ttlMs
  if acquired then
    -- `finally` releases whether `fn` has returned or thrown
    let result ← tryCatch (do pure (Except.ok (← fn))) fun err => pure (.error err)
    redis.evalRelease key token
    match result with
    | .ok a => pure a
    | .error err => throw err
  else otherwise

/-- A turn, and as many more after a delay as are left. -/
def lockFrom (redis : LockRedis m) (key token : String) (opts : DistributedLockOptions)
    (fn : m α) (lockAcquisitionError : ε) : ℕ → m α
  | 0 => lockAttempt redis key token opts.ttlMs fn (throw lockAcquisitionError)
  | retries + 1 => lockAttempt redis key token opts.ttlMs fn (do
      redis.sleep opts.retryDelayMs
      lockFrom redis key token opts fn lockAcquisitionError retries)

/-- `token` is the caller's `randomUUID()`. -/
def withDistributedLock (redis : LockRedis m) (name token : String) (fn : m α)
    (opts : DistributedLockOptions) (lockAcquisitionError : String → ε) : m α :=
  lockFrom redis (lockKeyFor name) token opts fn (lockAcquisitionError (lockKeyFor name))
    opts.retries

end Code

end Lock

def lockRedis : Lock.LockRedis Prog where
  setNx key token ttlMs := command (.redisSetNx key (.text token) ttlMs)
  evalRelease key token := command (.evalRelease key token)
  sleep ms := command (.sleep ms)

def lockOptions (env : Env) : Lock.DistributedLockOptions :=
  ⟨env.billingLockTtlMs, env.billingLockRetries, env.billingLockRetryDelayMs⟩

/-- The lock that budgets use. -/
def withDistributedLock {α : Type} (env : Env) (name : String) (fn : Prog α) : Prog α := do
  let token ← command .randomUUID
  Lock.withDistributedLock lockRedis name token.text fn (lockOptions env) .lockAcquisition

/-! ## `billing.ts` -/

structure BudgetStatus where
  spentUsd : ℚ
  budgetUsd : Option ℚ
  remainingUsd : Option ℚ
  remainingFraction : ℚ

def getBudgetStatus (orgId : OrgId) : Prog BudgetStatus := do
  let now ← command .dateNow
  let org ← command (.findOrganization orgId)
  match org with
  | none => throw (.error "No Organization found")
  | some org =>
    let budgetUsd ← (match org.monthlyBudgetOverrideUsd with
      | some override => pure (some override)
      | none => command (.findBillingPlan org.plan) : Prog (Option ℚ))
    let spentUsd ← command (.sumUsage orgId (startOfCurrentMonthUtc now))
    match budgetUsd with
    | none => pure ⟨spentUsd, none, none, 1⟩
    | some budgetUsd =>
      let remainingUsd : ℚ := budgetUsd - spentUsd
      -- a budget of 0 leaves the fraction 0
      pure ⟨spentUsd, some budgetUsd, some remainingUsd,
        if budgetUsd > 0 then remainingUsd / budgetUsd else 0⟩

def enforceBudget (env : Env) (orgId : OrgId) : Prog BudgetStatus := do
  let now ← command .dateNow
  withDistributedLock env (orgId.text ++ ":" ++ currentPeriodKey now) (do
    let status ← getBudgetStatus orgId
    match status.remainingUsd with
    | none => pure status
    | some remainingUsd =>
      -- the event is written under the lock, and stands although the request is refused
      if remainingUsd ≤ 0 then
        command (.writeOutboxEvent
          (.budgetExceeded orgId status.spentUsd status.budgetUsd remainingUsd))
        throw (.app (budgetExceededError remainingUsd))
      else pure status)

def maybePublishBudgetWarning (orgId : OrgId) (status : BudgetStatus) : Prog Unit :=
  if status.budgetUsd = none ∨ status.remainingFraction ≥ 1 / 10 then pure ()
  else command (.writeOutboxEvent
    (.budgetWarning orgId status.spentUsd status.budgetUsd status.remainingFraction))

/-- Whether this call has recorded the row. -/
def recordUsageAndOutbox (params : RecordUsageParams) : Prog Bool :=
  command (.insertUsage params (computeCostUsd params.model params.usage))

/-! ## `resilience.ts` -/

def circuitRedis : CircuitRedis Prog where
  evalAttempt name now config := command (.evalAttempt name now config)
  evalReport name now success config := command (.evalReport name now success config)

def computeBackoffDelay (attempt baseDelayMs : ℕ) (random : ℚ) : ℚ :=
  let exponential : ℚ := baseDelayMs * 2 ^ (attempt - 1)
  exponential + random * (exponential / 2)

/-- Attempt number `attempt`, and as many more as are left. -/
def retryFrom {α : Type} (env : Env) (fn : Prog α) (shouldRetry : Thrown → Bool) :
    ℕ → ℕ → Prog α
  | _, 0 => fn
  | attempt, attemptsLeft + 1 =>
    tryCatch fn fun err =>
      -- a circuit that is open is not asked again
      if shouldRetry err then do
        let random ← command .random
        command (.sleep (computeBackoffDelay attempt env.retryBaseDelayMs random))
        retryFrom env fn shouldRetry (attempt + 1) attemptsLeft
      else throw err

def withRetry {α : Type} (env : Env) (fn : Prog α) (shouldRetry : Thrown → Bool) : Prog α :=
  retryFrom env fn shouldRetry 1 (env.retryMaxAttempts - 1)

def isCircuitOpen : Thrown → Bool
  | .circuitOpen _ => true
  | _ => false

/-- One attempt through the breaker, with the default `now`. -/
def callThroughBreaker {α : Type} (env : Env) (providerName : String) (fn : Prog α) : Prog α := do
  let now ← command .dateNow
  withCircuitBreaker circuitRedis providerName env.circuitConfig fn now

def callProviderResilient {α : Type} (env : Env) (providerName : String) (fn : Prog α) : Prog α :=
  tryCatch (withRetry env (callThroughBreaker env providerName fn) fun err => !isCircuitOpen err)
    fun err =>
      if isCircuitOpen err then
        throw (.app (serviceUnavailableError
          (providerName ++ " is temporarily unavailable (circuit open)")
          ((env.circuitOpenDurationMs : ℕ) / 1000)))
      else throw err

/-- `err instanceof ServiceUnavailableError`. -/
def isServiceUnavailable : Thrown → Bool
  | .app err => err.isServiceUnavailable
  | _ => false

def callProviderResilientWithStats {α : Type} (env : Env) (providerName : String) (fn : Prog α) :
    Prog α := do
  let start ← command .dateNow
  tryCatch
    (do
      let result ← callProviderResilient env providerName fn
      let now ← command .dateNow
      command (.recordProviderOutcome providerName (now - start) true)
      pure result)
    fun err =>
      -- what the breaker has turned away is not recorded
      if isServiceUnavailable err then throw err
      else do
        let now ← command .dateNow
        command (.recordProviderOutcome providerName (now - start) false)
        throw err

/-! ## `requestDedup.ts` -/

/-- A stored result; the mark of a leader at work is none. -/
def getDedupResult (key : String) : Prog (Option ChatResponse) := do
  let existing ← getAs (fun
    | .processing => some none
    | .response r => some (some r)
    | _ => none) (dedupKey key)
  pure existing.join

/-- The message is the first one that reaches the follower after it has subscribed. -/
def waitForLeader (key : String) (fallback : Prog ChatResponse) : Prog ChatResponse :=
  tryCatch
    (do
      let since ← command (.subscribe (resultChannel key))
      -- the leader may have published before the subscription
      let recheck ← getDedupResult key
      match recheck with
      | some r => pure r
      | none =>
        let message ← command (.awaitMessage (resultChannel key) since)
        match message with
        | none => throw (.error "dedup follower timed out")
        | some none => throw (.error "dedup leader failed")
        | some (some r) => pure r)
    -- a failure of whatever kind makes the follower call for itself
    fun _ => fallback

def withRequestDedup (env : Env) (key : String) (fn : Prog ChatResponse) : Prog ChatResponse := do
  let ttlMs := (env.dedupLeaderTtlSeconds : ℕ) * 1000
  let claimed ← command (.redisSetNx (dedupKey key) .processing ttlMs)
  if claimed then
    tryCatch
      (do
        let result ← fn
        command (.redisSet (dedupKey key) (.response result) ttlMs)
        command (.publish (resultChannel key) (some result))
        pure result)
      fun err => do
        command (.redisDel (dedupKey key))
        command (.publish (resultChannel key) none)
        throw err
  else
    let existing ← getDedupResult key
    match existing with
    | some r => pure r
    | none => waitForLeader key fn

/-! ## `semanticCache.ts` -/

/-- `JSON.stringify` of one message. -/
def messageJson (message : Message) : String :=
  "\x7b\"role\":" ++ quote message.role.text ++ ",\"content\":" ++ quote message.content ++
    "\x7d"

/-- `JSON.stringify({ model, messages })`. -/
def canonicalPrompt (model : String) (messages : List Message) : String :=
  "\x7b\"model\":" ++ (quote model ++ (",\"messages\":[" ++
    String.intercalate "," (messages.map messageJson) ++ "]\x7d"))

def computePromptHash (deps : Deps) (model : String) (messages : List Message) : String :=
  deps.sha256 (canonicalPrompt model messages)

theorem text_injective : Function.Injective Role.text := by
  intro a b h
  cases a <;> cases b <;> first | rfl | exact absurd h (by decide)

theorem append_right_inj {s x y : String} (h : s ++ x = s ++ y) : x = y := by
  have hlist := congrArg String.toList h
  simp only [String.toList_append, List.append_cancel_left_eq] at hlist
  exact String.toList_inj.mp hlist

theorem messageJson_append_inj {m n : Message} {x y : String}
    (h : messageJson m ++ x = messageJson n ++ y) : m = n ∧ x = y := by
  simp only [messageJson, String.append_assoc] at h
  obtain ⟨hrole, hrest⟩ := quote_append_inj (append_right_inj h)
  obtain ⟨hcontent, hend⟩ := quote_append_inj (append_right_inj hrest)
  obtain ⟨role, content⟩ := m
  obtain ⟨role', content'⟩ := n
  obtain rfl := text_injective hrole
  obtain rfl := hcontent
  exact ⟨rfl, append_right_inj hend⟩

/-- The elements of a list after the first one, up to the closing bracket. -/
def moreMessages (ms : List Message) : String :=
  ms.foldr (fun m rest => "," ++ (messageJson m ++ rest)) "]\x7d"

theorem intercalate_messageJson (m : Message) (ms : List Message) :
    String.intercalate "," ((m :: ms).map messageJson) ++ "]\x7d" =
      messageJson m ++ moreMessages ms := by
  induction ms generalizing m with
  | nil => simp [moreMessages]
  | cons n ms ih =>
    have hn := ih n
    simp only [List.map_cons] at hn ⊢
    rw [String.intercalate_cons_cons, String.append_assoc, String.append_assoc, hn]
    rfl

theorem comma_append_ne {x y : String} : "," ++ x ≠ "]\x7d" ++ y := by
  intro h
  have hlist := congrArg String.toList h
  simp [String.toList_append] at hlist

theorem moreMessages_injective : Function.Injective moreMessages := by
  intro ms ns h
  induction ms generalizing ns with
  | nil =>
    cases ns with
    | nil => rfl
    | cons n ns => exact absurd (h.symm.trans (String.append_empty).symm) comma_append_ne
  | cons m ms ih =>
    cases ns with
    | nil => exact absurd (h.trans (String.append_empty).symm) comma_append_ne
    | cons n ns =>
      obtain ⟨rfl, hrest⟩ := messageJson_append_inj (append_right_inj h)
      rw [ih hrest]

/-- The hashed text determines the model and the messages. -/
theorem canonicalPrompt_inj {model model' : String} {ms ns : List Message}
    (h : canonicalPrompt model ms = canonicalPrompt model' ns) : model = model' ∧ ms = ns := by
  obtain ⟨hmodel, hrest⟩ := quote_append_inj (append_right_inj h)
  refine ⟨hmodel, ?_⟩
  simp only [String.append_assoc] at hrest
  have hms := append_right_inj hrest
  cases ms with
  | nil =>
    cases ns with
    | nil => rfl
    | cons n ns =>
      rw [intercalate_messageJson] at hms
      have hlist := congrArg String.toList hms
      simp [messageJson, String.toList_append] at hlist
  | cons m ms =>
    rw [intercalate_messageJson] at hms
    cases ns with
    | nil =>
      have hlist := congrArg String.toList hms
      simp [messageJson, String.toList_append] at hlist
    | cons n ns =>
      rw [intercalate_messageJson] at hms
      obtain ⟨rfl, hmore⟩ := messageJson_append_inj hms
      rw [moreMessages_injective hmore]

/-- A cached response, or the embedding that the lookup has computed. -/
inductive CacheLookup
  | hit (response : ChatResponse)
  | miss (embedding : List ℚ)

def lookupCache (deps : Deps) (orgId : OrgId) (model promptHash promptText : String)
    (ttlDays : ℕ) : Prog CacheLookup := do
  let exact ← command (.findExact orgId model promptHash ttlDays)
  match exact with
  | some response => pure (.hit response)
  | none =>
    let embedding ← command (.embed promptText)
    let top ← command (.findNearest orgId model embedding ttlDays)
    match top with
    | none => pure (.miss embedding)
    | some (response, similarity) =>
      if similarity ≥ deps.env.semanticCacheSimilarityThreshold then pure (.hit response)
      else pure (.miss embedding)

def storeCache (orgId : OrgId) (model promptHash : String) (embedding : List ℚ)
    (response : ChatResponse) : Prog Unit :=
  command (.insertCache orgId model promptHash embedding response)

/-- An empty `keepModel` counts as none. -/
def flushCache (orgId : OrgId) (keepModel : Option String) : Prog ℕ :=
  command (.deleteCache orgId (keepModel.filter fun model => model ≠ ""))

def recordCacheOutcome (orgId : OrgId) (outcome : String) : Prog Unit := do
  let _ ← command (.redisIncr (statsKey orgId outcome))
  pure ()

/-- The counts that one `MGET` answers; a missing counter is 0. -/
def getCounts (keys : List String) : Prog (List ℕ) := do
  let values ← command (.redisMGet keys)
  pure (values.map fun
    | some (.count n) => n
    | _ => 0)

structure CacheStats where
  hits : ℕ
  misses : ℕ

def getCacheStats (orgId : OrgId) : Prog CacheStats := do
  let counts ← getCounts [statsKey orgId "hit", statsKey orgId "miss"]
  pure ⟨counts.getD 0 0, counts.getD 1 0⟩

/-! ## `routing.ts` -/

def routingRedis : RoutingRedis Prog where
  hgetState name := command (.hgetState name)
  getProviderStats name := command (.getProviderStats name)

def recordAbSelection (orgId : OrgId) (model : String) : Prog Unit := do
  let _ ← command (.redisIncr (abCountKey orgId model))
  pure ()

def getAbStats (orgId : OrgId) (abConfig : AbConfig) : Prog (List (String × ℕ)) :=
  let models := abConfig.map Prod.fst
  if models = [] then pure []
  else do
    let counts ← getCounts (models.map (abCountKey orgId))
    pure (models.zip counts)

/-! ## `platformEvents.ts` -/

/-- Every failure is swallowed. -/
def emitProviderDegradedEvent (orgId : OrgId) (provider reason : String) : Prog Unit :=
  tryCatch
    (do
      let claimed ← command (.redisSetNx (degradedKey orgId provider) (.text "1") 300000)
      if claimed then
        let occurredAt ← command .dateNow
        command (.writeOutboxEvent (.providerDegraded orgId provider reason occurredAt))
      else pure ())
    fun _ => pure ()

end CloudMesh.Gateway
