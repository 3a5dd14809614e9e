import CloudMesh.Concurrent.Transcript
import CloudMesh.Gateway.Confinement
import CloudMesh.GroupBy
import CloudMesh.RateLimiter.TokenBucket

/-!
# Rejections and the events about them

`apps/gateway/src/middleware/requireRateLimit.ts` and `apps/gateway/src/lib/platformEvents.ts` with
any number of requests, over a Redis and a database that can fail before or after they have done
what they are asked. A key of Redis that expires lets one event of a kind through in a window,
however many requests are rejected. What becomes of the event does not change what a request is
told, and who waits as long as told is admitted next.

## Main definitions

- `requireRateLimit`, `emitRateLimitedEvent`, `emitProviderDegradedEvent` — the code
- `platform` — the system of its callers
- `Throttled` — the rows of the outbox, the counters and the answers in every configuration
- `Admits` — when the next request on a key is admitted
-/

namespace CloudMesh.Gateway.PlatformEvents

open Concurrent RateLimiter

def RATE_LIMITED_DEDUPE_SECONDS : ℕ := 60

def PROVIDER_DEGRADED_DEDUPE_SECONDS : ℕ := 300

/-- What events are deduplicated by. -/
inductive Slot
  | rateLimited (orgId : OrgId)
  | degraded (orgId : OrgId) (provider : String)
  deriving DecidableEq

def Slot.key : Slot → String
  | .rateLimited orgId => "events:ratelimited:" ++ orgId.text
  | .degraded orgId provider => degradedKey orgId provider

def Slot.dedupeSeconds : Slot → ℕ
  | .rateLimited _ => RATE_LIMITED_DEDUPE_SECONDS
  | .degraded .. => PROVIDER_DEGRADED_DEDUPE_SECONDS

inductive Payload
  | rateLimited (apiKeyId : Uuid) (retryAfterSeconds : ℚ)
  | degraded (provider reason : String)
  deriving DecidableEq

/-- A row of `outbox_events`, with what the payloads of both types have. -/
structure Row where
  eventType : String
  orgId : OrgId
  payload : Payload
  dedupeWindowSeconds : ℕ
  occurredAt : ℤ
  deriving DecidableEq

def Row.slot (row : Row) : Slot :=
  match row.payload with
  | .rateLimited .. => .rateLimited row.orgId
  | .degraded provider _ => .degraded row.orgId provider

def rateLimitedRow (orgId : OrgId) (apiKeyId : Uuid) (retryAfterSeconds : ℚ) (occurredAt : ℤ) :
    Row :=
  ⟨"request.rate_limited", orgId, .rateLimited apiKeyId retryAfterSeconds,
    RATE_LIMITED_DEDUPE_SECONDS, occurredAt⟩

def degradedRow (orgId : OrgId) (provider reason : String) (occurredAt : ℤ) : Row :=
  ⟨"provider.degraded", orgId, .degraded provider reason, PROVIDER_DEGRADED_DEDUPE_SECONDS,
    occurredAt⟩

/-! ## The code -/

/-- What both emitters do: every failure is swallowed. -/
def emitOnce {m : Type → Type} [Monad m] {ε : Type} [MonadExcept ε m] (claimDedupeSlot : m Bool)
    (dateNow : m ℤ) (emit : ℤ → m Unit) : m Unit :=
  tryCatch
    (do
      let claimed ← claimDedupeSlot
      if claimed then
        let occurredAt ← dateNow
        emit occurredAt
      else pure ())
    fun _ => pure ()

/-- The emitter of the routes is of this form. -/
theorem gateway_emitProviderDegradedEvent (orgId : OrgId) (provider reason : String) :
    Gateway.emitProviderDegradedEvent orgId provider reason =
      emitOnce (command (.redisSetNx (degradedKey orgId provider) (.text "1")
          (PROVIDER_DEGRADED_DEDUPE_SECONDS * 1000))) (command .dateNow)
        fun occurredAt =>
          command (.writeOutboxEvent (.providerDegraded orgId provider reason occurredAt)) := rfl

inductive Thrown
  | unavailable
  | app (err : AppError)
  deriving DecidableEq

inductive Cmd
  | tokenBucket (apiKeyId : Uuid) (rateLimitRpm : ℕ+) (now : ℤ)
  | inc (orgId : OrgId)
  | dateNow
  | setNxEx (key : String) (ttlSeconds : ℕ)
  | writeOutboxEvent (row : Row)
  deriving DecidableEq

abbrev sig : Signature where
  Cmd := Cmd
  Ans
    | .tokenBucket .. => Except Thrown RateLimitResult
    | .inc _ => Unit
    | .dateNow => ℤ
    | .setNxEx .. => Except Thrown Bool
    | .writeOutboxEvent _ => Except Thrown Unit

abbrev Prog (α : Type) := Handler sig Thrown α

def dateNow : Prog ℤ := @Handler.call sig _ .dateNow

def claimDedupeSlot (key : String) (ttlSeconds : ℕ) : Prog Bool :=
  ExceptT.mk (@Program.call sig (.setNxEx key ttlSeconds))

def emit (row : Row) : Prog Unit := ExceptT.mk (@Program.call sig (.writeOutboxEvent row))

def emitFor (slot : Slot) (row : ℤ → Row) : Prog Unit :=
  emitOnce (claimDedupeSlot slot.key slot.dedupeSeconds) dateNow fun occurredAt =>
    emit (row occurredAt)

def emitRateLimitedEvent (orgId : OrgId) (apiKeyId : Uuid) (retryAfterSeconds : ℚ) : Prog Unit :=
  emitFor (.rateLimited orgId) (rateLimitedRow orgId apiKeyId retryAfterSeconds)

def emitProviderDegradedEvent (orgId : OrgId) (provider reason : String) : Prog Unit :=
  emitFor (.degraded orgId provider) (degradedRow orgId provider reason)

/-- What the middleware needs of a key; the API gives every key a limit of at least 1. -/
structure ApiKeyContext where
  apiKeyId : Uuid
  orgId : OrgId
  rateLimitRpm : ℕ+
  deriving DecidableEq

def tokenBucket (apiKeyId : Uuid) (rateLimitRpm : ℕ+) : Prog RateLimitResult := do
  let now ← dateNow
  ExceptT.mk (@Program.call sig (.tokenBucket apiKeyId rateLimitRpm now))

def requireRateLimit (ctx : ApiKeyContext) : Prog Unit := do
  let result ← tokenBucket ctx.apiKeyId ctx.rateLimitRpm
  if result.allowed then pure ()
  else
    @Handler.call sig _ (.inc ctx.orgId)
    let now ← dateNow
    let retryAfterSeconds := (result.resetAt - now) / 1000
    emitRateLimitedEvent ctx.orgId ctx.apiKeyId retryAfterSeconds
    throw (.app (rateLimitError retryAfterSeconds))

/-! ## The system -/

/-- Redis with its clock, the table and the counters of the process. -/
structure Store where
  clock : ℕ
  buckets : Uuid → Option Bucket
  /-- When each key that is there expires. -/
  slots : String → Option ℕ
  outbox : List Row
  rejectedTotal : OrgId → ℕ

def Store.empty (clock : ℕ) : Store := ⟨clock, fun _ => none, fun _ => none, [], fun _ => 0⟩

/-- Time passes, and the keys that it has come to the end of expire. -/
def Store.tick (s : Store) (d : ℕ) : Store :=
  { s with
    clock := s.clock + d
    slots := fun key => (s.slots key).filter fun expireAt => s.clock + d < expireAt }

/-- Whether a command has taken effect, and whether that is known. -/
inductive Outcome
  | answered
  | unreached
  | unanswered
  deriving DecidableEq

def Outcome.attempt {α : Type} (outcome : Outcome) (r : α) (before after : Store) :
    Except Thrown α × Store :=
  match outcome with
  | .answered => (.ok r, after)
  | .unreached => (.error .unavailable, before)
  | .unanswered => (.error .unavailable, after)

/-- Capacity for a minute. -/
def bucketConfig (rateLimitRpm : ℕ+) : TokenBucketConfig where
  capacity := (rateLimitRpm : ℕ)
  refillPerSecond := (rateLimitRpm : ℕ) / 60
  capacity_pos := by exact_mod_cast rateLimitRpm.pos
  refill_pos := by
    have hpos : (0 : ℚ) < (rateLimitRpm : ℕ) := by exact_mod_cast rateLimitRpm.pos
    positivity

/-- A request costs 1. -/
def bucketCall (clock : ℕ) (now : ℤ) : Call := ⟨clock, now, 1⟩

/-- What the bucket answers to a request, and what is left of it. -/
def Store.take (s : Store) (apiKeyId : Uuid) (rateLimitRpm : ℕ+) (now : ℤ) :
    RateLimitResult × Bucket :=
  RateLimiter.tokenBucket (bucketConfig rateLimitRpm) (bucketCall s.clock now)
    (s.buckets apiKeyId)

/-- The store after a command that has reached it. -/
def Store.effect (s : Store) : Cmd → Store
  | .tokenBucket apiKeyId rateLimitRpm now =>
    { s with buckets :=
        Function.update s.buckets apiKeyId (some (s.take apiKeyId rateLimitRpm now).2) }
  | .inc orgId =>
    { s with rejectedTotal :=
        Function.update s.rejectedTotal orgId (s.rejectedTotal orgId + 1) }
  | .dateNow => s
  | .setNxEx key ttlSeconds =>
    match s.slots key with
    | some _ => s
    | none => { s with slots :=
        Function.update s.slots key (some (s.clock + ttlSeconds * 1000)) }
  | .writeOutboxEvent row => { s with outbox := row :: s.outbox }

/-- `i` is what becomes of the command, and the time on the clock of the process. -/
def exec (c : Cmd) (i : Outcome × ℤ) (s : Store) : Option (sig.Ans c × Store) :=
  match c with
  | .tokenBucket apiKeyId rateLimitRpm now =>
    some (i.1.attempt (s.take apiKeyId rateLimitRpm now).1 s
      (s.effect (.tokenBucket apiKeyId rateLimitRpm now)))
  | .inc orgId => some ((), s.effect (.inc orgId))
  | .dateNow => some (i.2, s)
  | .setNxEx key ttlSeconds =>
    some (i.1.attempt (s.slots key).isNone s (s.effect (.setNxEx key ttlSeconds)))
  | .writeOutboxEvent row => some (i.1.attempt () s (s.effect (.writeOutboxEvent row)))

inductive Op
  | requireRateLimit (ctx : ApiKeyContext)
  | emitProviderDegradedEvent (orgId : OrgId) (provider reason : String)
  deriving DecidableEq

def code : Op → Program sig (Except Thrown Unit)
  | .requireRateLimit ctx => (requireRateLimit ctx).run
  | .emitProviderDegradedEvent orgId provider reason =>
    (emitProviderDegradedEvent orgId provider reason).run

def platform : System sig ℕ Store (Outcome × ℤ) ℕ Op (Except Thrown Unit) where
  exec _ := exec
  drift d s := some (s.tick d)
  code _ := code

abbrev PlatformConfig := Config sig ℕ Store Op (Except Thrown Unit)

abbrev PlatformLabel := Label ℕ (Outcome × ℤ) ℕ Op

/-! ## What the processes do -/

/-- The commands of an emission after the transcript `t₀`, each with the transcript before it. -/
inductive Emits (slot : Slot) (row : ℤ → Row) (t₀ : Transcript sig) : Transcript sig → Cmd → Prop
  | claim : Emits slot row t₀ t₀ (.setNxEx slot.key slot.dedupeSeconds)
  | stamp : Emits slot row t₀ (⟨.setNxEx slot.key slot.dedupeSeconds, .ok true⟩ :: t₀) .dateNow
  | write (occurredAt : ℤ) : Emits slot row t₀
      (⟨.dateNow, occurredAt⟩ :: ⟨.setNxEx slot.key slot.dedupeSeconds, .ok true⟩ :: t₀)
      (.writeOutboxEvent (row occurredAt))

/-- The transcript of a request that the bucket has answered. -/
def answered (ctx : ApiKeyContext) (now : ℤ) (result : Except Thrown RateLimitResult) :
    Transcript sig :=
  [⟨.tokenBucket ctx.apiKeyId ctx.rateLimitRpm now, result⟩, ⟨.dateNow, now⟩]

/-- The transcript of a rejection when its event is emitted. -/
def rejected (ctx : ApiKeyContext) (now : ℤ) (result : RateLimitResult) (later : ℤ) :
    Transcript sig :=
  ⟨.dateNow, later⟩ :: ⟨.inc ctx.orgId, ()⟩ :: answered ctx now (.ok result)

/-- What a request that is rejected is told. -/
def retryAfterSeconds (result : RateLimitResult) (later : ℤ) : ℚ := (result.resetAt - later) / 1000

/-- What a process has done when it issues a command. -/
inductive Rule : Op → Transcript sig → Cmd → Prop
  | now (ctx : ApiKeyContext) : Rule (.requireRateLimit ctx) [] .dateNow
  | bucket (ctx : ApiKeyContext) (now : ℤ) : Rule (.requireRateLimit ctx) [⟨.dateNow, now⟩]
      (.tokenBucket ctx.apiKeyId ctx.rateLimitRpm now)
  | count (ctx : ApiKeyContext) (now : ℤ) (result : RateLimitResult)
      (h : result.allowed = false) :
      Rule (.requireRateLimit ctx) (answered ctx now (.ok result)) (.inc ctx.orgId)
  | later (ctx : ApiKeyContext) (now : ℤ) (result : RateLimitResult)
      (h : result.allowed = false) :
      Rule (.requireRateLimit ctx) (⟨.inc ctx.orgId, ()⟩ :: answered ctx now (.ok result)) .dateNow
  | emit (ctx : ApiKeyContext) (now : ℤ) (result : RateLimitResult) (later : ℤ)
      (h : result.allowed = false) {t : Transcript sig} {c : Cmd}
      (hemit : Emits (.rateLimited ctx.orgId)
        (rateLimitedRow ctx.orgId ctx.apiKeyId (retryAfterSeconds result later))
        (rejected ctx now result later) t c) : Rule (.requireRateLimit ctx) t c
  | degraded (orgId : OrgId) (provider reason : String) {t : Transcript sig} {c : Cmd}
      (hemit : Emits (.degraded orgId provider) (degradedRow orgId provider reason) [] t c) :
      Rule (.emitProviderDegradedEvent orgId provider reason) t c

/-- How a process ends; what comes of an emission does not matter. -/
inductive Ended : Op → Except Thrown Unit → Transcript sig → Prop
  | failed (ctx : ApiKeyContext) (now : ℤ) (e : Thrown) :
      Ended (.requireRateLimit ctx) (.error e) (answered ctx now (.error e))
  | admitted (ctx : ApiKeyContext) (now : ℤ) (result : RateLimitResult)
      (h : result.allowed = true) :
      Ended (.requireRateLimit ctx) (.ok ()) (answered ctx now (.ok result))
  | rejected (ctx : ApiKeyContext) (now : ℤ) (result : RateLimitResult) (later : ℤ)
      (h : result.allowed = false) {t : Transcript sig} (ht : rejected ctx now result later <:+ t) :
      Ended (.requireRateLimit ctx)
        (.error (.app (rateLimitError (retryAfterSeconds result later)))) t
  | degraded (orgId : OrgId) (provider reason : String) (t : Transcript sig) :
      Ended (.emitProviderDegradedEvent orgId provider reason) (.ok ()) t

theorem emitFor_run (slot : Slot) (row : ℤ → Row) : (emitFor slot row).run =
    .issue (.setNxEx slot.key slot.dedupeSeconds) fun (claimed : Except Thrown Bool) =>
      match claimed with
      | .ok true => .issue .dateNow fun (occurredAt : ℤ) =>
          .issue (.writeOutboxEvent (row occurredAt)) fun _ => .done (.ok ())
      | _ => .done (.ok ()) := by
  refine congrArg (@Program.issue sig _ _) (funext fun (claimed : Except Thrown Bool) => ?_)
  rcases claimed with e | claimed
  · rfl
  · cases claimed with
    | false => rfl
    | true =>
      refine congrArg (@Program.issue sig _ .dateNow) (funext fun (occurredAt : ℤ) => ?_)
      refine congrArg (@Program.issue sig _ _) (funext fun (written : Except Thrown Unit) => ?_)
      cases written <;> rfl

/-- An emission returns whatever happens. -/
theorem emitFor_follows {M : Transcript sig → Cmd → Prop} {slot : Slot} {row : ℤ → Row}
    {t₀ : Transcript sig} (h : ∀ t c, Emits slot row t₀ t c → M t c) :
    (emitFor slot row).run.Follows M (fun r t => r = .ok () ∧ t₀ <:+ t) t₀ := by
  rw [emitFor_run]
  refine ⟨h _ _ .claim, fun (claimed : Except Thrown Bool) => ?_⟩
  rcases claimed with e | claimed
  · exact ⟨rfl, List.suffix_cons _ _⟩
  · cases claimed with
    | false => exact ⟨rfl, List.suffix_cons _ _⟩
    | true =>
      refine ⟨h _ _ .stamp, fun occurredAt => ⟨h _ _ (.write occurredAt), fun _ => ⟨rfl, ?_⟩⟩⟩
      exact ⟨[_, _, _], rfl⟩

theorem requireRateLimit_follows (ctx : ApiKeyContext) : (requireRateLimit ctx).run.Follows
    (Rule (.requireRateLimit ctx)) (Ended (.requireRateLimit ctx)) [] := by
  refine ⟨.now ctx, fun (now : ℤ) => ⟨.bucket ctx now, fun result => ?_⟩⟩
  rcases result with e | result
  · exact .failed ctx now e
  · cases hallowed : result.allowed with
    | true =>
      show Program.Follows _ _ (ite _ _ _ : Prog Unit).run _
      rw [if_pos hallowed]
      exact .admitted ctx now result hallowed
    | false =>
      show Program.Follows _ _ (ite _ _ _ : Prog Unit).run _
      rw [if_neg (by simp [hallowed])]
      refine ⟨.count ctx now result hallowed, fun _ => ⟨.later ctx now result hallowed,
        fun (later : ℤ) => ?_⟩⟩
      refine (emitFor_follows fun t c => .emit ctx now result later hallowed).bind ?_
      rintro r t ⟨rfl, ht⟩
      exact .rejected ctx now result later hallowed ht

theorem obeys : platform.Obeys (fun _ => Rule) fun _ => Ended := by
  intro p op
  cases op with
  | requireRateLimit ctx => exact requireRateLimit_follows ctx
  | emitProviderDegradedEvent orgId provider reason =>
    refine (emitFor_follows fun t c => .degraded orgId provider reason).mono (fun _ _ h => h) ?_
    rintro r t ⟨rfl, -⟩
    exact .degraded orgId provider reason t

/-! ## Slots -/

/-- The slot of the event that a process may emit. -/
def Op.slot : Op → Slot
  | .requireRateLimit ctx => .rateLimited ctx.orgId
  | .emitProviderDegradedEvent orgId provider _ => .degraded orgId provider

/-- Beginnings of which neither begins the other. -/
theorem append_ne {p q : String} (h : ¬p.toList.isPrefixOf q.toList)
    (h' : ¬q.toList.isPrefixOf p.toList) (x y : String) : p ++ x ≠ q ++ y := by
  intro heq
  have hlist := congrArg String.toList heq
  simp only [String.toList_append] at hlist
  rcases List.prefix_or_prefix_of_prefix ⟨_, rfl⟩ ⟨_, hlist.symm⟩ with hle | hle
  · exact h (List.isPrefixOf_iff_prefix.mpr hle)
  · exact h' (List.isPrefixOf_iff_prefix.mpr hle)

theorem key_rateLimited (orgId : OrgId) :
    (Slot.rateLimited orgId).key = "events:ratelimited:" ++ orgId.text := rfl

theorem key_degraded (orgId : OrgId) (provider : String) : (Slot.degraded orgId provider).key =
    "events:degraded:" ++ (orgId.text ++ (":" ++ provider)) := by
  show degradedKey orgId provider = _
  unfold degradedKey
  simp only [String.append_assoc]

theorem rateLimited_key_ne (orgId other : OrgId) (provider : String) :
    (Slot.rateLimited orgId).key ≠ (Slot.degraded other provider).key := by
  rw [key_rateLimited, key_degraded]
  exact append_ne (by decide) (by decide) _ _

/-- No two slots have the same key. -/
theorem Slot.key_injective : Function.Injective Slot.key := by
  intro a b h
  cases a with
  | rateLimited orgId =>
    cases b with
    | rateLimited other =>
      rw [key_rateLimited, key_rateLimited] at h
      have htext := append_right_inj h
      have hempty : orgId.text ++ "" = other.text ++ "" := by
        rw [htext]
      rw [(Uuid.text_append_inj hempty).1]
    | degraded other provider => exact absurd h (rateLimited_key_ne _ _ _)
  | degraded orgId provider =>
    cases b with
    | rateLimited other => exact absurd h.symm (rateLimited_key_ne _ _ _)
    | degraded other provider' =>
      rw [key_degraded, key_degraded] at h
      obtain ⟨rfl, hrest⟩ := Uuid.text_append_inj (append_right_inj h)
      rw [append_right_inj hrest]

section Rules

variable {op : Op} {t : Transcript sig} {key : String} {ttlSeconds : ℕ} {row : Row}

theorem Rule.claim (h : Rule op t (.setNxEx key ttlSeconds)) :
    key = op.slot.key ∧ ttlSeconds = op.slot.dedupeSeconds := by
  cases h with
  | emit ctx now result later h hemit => cases hemit; exact ⟨rfl, rfl⟩
  | degraded orgId provider reason hemit => cases hemit; exact ⟨rfl, rfl⟩

theorem Rule.write (h : Rule op t (.writeOutboxEvent row)) :
    row.slot = op.slot ∧ row.dedupeWindowSeconds = op.slot.dedupeSeconds := by
  cases h with
  | emit ctx now result later h hemit => cases hemit; exact ⟨rfl, rfl⟩
  | degraded orgId provider reason hemit => cases hemit; exact ⟨rfl, rfl⟩

end Rules

/-! ## Counting -/

/-- A `SET` on the key of the slot that is known to have succeeded. -/
def isGrant (slot : Slot) : Exchange sig → Bool
  | ⟨.setNxEx key _, .ok true⟩ => key = slot.key
  | _ => false

/-- A row of the slot, whether it is known to have been written or not. -/
def isWrite (slot : Slot) : Exchange sig → Bool
  | ⟨.writeOutboxEvent row, _⟩ => row.slot = slot
  | _ => false

def isInc (orgId : OrgId) : Exchange sig → Bool
  | ⟨.inc other, _⟩ => other = orgId
  | _ => false

/-- How many events of the history are of a kind. -/
def total (kind : Exchange sig → Bool) (history : List (Event sig ℕ)) : ℕ :=
  history.countP fun e => kind ⟨e.cmd, e.ans⟩

theorem total_eq_sum (kind : Exchange sig → Bool) (history : List (Event sig ℕ)) :
    total kind history = ((GroupBy.keys Event.pid history).map fun p =>
      (transcript p history).countP kind).sum := by
  have hone (h : List (Event sig ℕ)) :
      (h.map fun e => if kind ⟨e.cmd, e.ans⟩ then 1 else 0).sum = total kind h := by
    induction h with
    | nil => rfl
    | cons e h ih =>
      rw [List.map_cons, List.sum_cons, ih, total, total, List.countP_cons, add_comm]
  rw [← hone, ← GroupBy.sum_group _ (GroupBy.nodup_keys Event.pid history) fun e he =>
    GroupBy.mem_keys.mpr ⟨e, he, rfl⟩]
  refine congrArg List.sum (List.map_congr_left fun p _ => ?_)
  rw [hone, transcript, List.countP_map]
  rfl

/-- What no process has done more often than something else has not been done more often. -/
theorem total_le {kind kind' : Exchange sig → Bool} {history : List (Event sig ℕ)}
    (h : ∀ p, (transcript p history).countP kind ≤ (transcript p history).countP kind') :
    total kind history ≤ total kind' history := by
  rw [total_eq_sum, total_eq_sum]
  exact List.sum_le_sum fun p _ => h p

section Counts

variable {c : PlatformConfig}

/-- No process writes a row before it has been granted the slot. -/
theorem writes_le_grants (h : System.Conforms (fun _ => Rule) (fun _ => Ended) c) (slot : Slot) :
    total (isWrite slot) c.world.history ≤ total (isGrant slot) c.world.history := by
  refine total_le (h.transcript_induction
    (I := fun t => t.countP (isWrite slot) ≤ t.countP (isGrant slot)) le_rfl ?_)
  intro p op t cmd r hrule hle
  rw [List.countP_cons, List.countP_cons]
  cases cmd with
  | writeOutboxEvent row =>
    have hslot := hrule.write.1
    by_cases hrow : row.slot = slot
    · subst hrow
      cases hrule with
      | emit ctx now result later h hemit =>
        cases hemit
        simp [isWrite, isGrant, rejected, answered, Op.slot, hslot]
      | degraded orgId provider reason hemit =>
        cases hemit
        simp [isWrite, isGrant, Op.slot, hslot]
    · simpa [isWrite, hrow, isGrant] using hle
  | setNxEx key ttlSeconds => exact hle.trans (Nat.le_add_right _ _)
  | tokenBucket | inc | dateNow => simpa [isWrite, isGrant] using hle

end Counts

/-! ## What a command does -/

/-- The answer is that the command has failed. -/
def Failed : (c : Cmd) → sig.Ans c → Prop
  | .tokenBucket .., r => r = .error .unavailable
  | .setNxEx .., r => r = .error .unavailable
  | .writeOutboxEvent _, r => r = .error .unavailable
  | .inc _, _ | .dateNow, _ => False

section Effects

variable {α : Type} {outcome : Outcome} {a : α} {x : Except Thrown α} {before after s s' : Store}
  {c : Cmd} {i : Outcome × ℤ} {r : sig.Ans c} {key : String} {ttlSeconds : ℕ}

theorem Outcome.attempt_cases (h : outcome.attempt a before after = (x, s)) :
    x = .ok a ∧ s = after ∨ x = .error .unavailable ∧ (s = before ∨ s = after) := by
  cases outcome with
  | answered => cases h; exact .inl ⟨rfl, rfl⟩
  | unreached => cases h; exact .inr ⟨rfl, .inl rfl⟩
  | unanswered => cases h; exact .inr ⟨rfl, .inr rfl⟩

/-- A command has its effect, unless it has failed. -/
theorem exec_cases (h : exec c i s = some (r, s')) :
    s' = s.effect c ∨ s' = s ∧ Failed c r := by
  cases c with
  | tokenBucket apiKeyId rateLimitRpm now =>
    rcases Outcome.attempt_cases (Option.some.inj h) with ⟨-, hs⟩ | ⟨hr, hs | hs⟩
    · exact .inl hs
    · exact .inr ⟨hs, hr⟩
    · exact .inl hs
  | inc orgId => cases h; exact .inl rfl
  | dateNow => cases h; exact .inl rfl
  | setNxEx key ttlSeconds =>
    rcases Outcome.attempt_cases (Option.some.inj h) with ⟨-, hs⟩ | ⟨hr, hs | hs⟩
    · exact .inl hs
    · exact .inr ⟨hs, hr⟩
    · exact .inl hs
  | writeOutboxEvent row =>
    rcases Outcome.attempt_cases (Option.some.inj h) with ⟨-, hs⟩ | ⟨hr, hs | hs⟩
    · exact .inl hs
    · exact .inr ⟨hs, hr⟩
    · exact .inl hs

/-- A `SET` that is answered tells whether the key was free. -/
theorem claimed_of_exec {claimed : Bool}
    (h : exec (.setNxEx key ttlSeconds) i s = some (.ok claimed, s')) :
    claimed = (s.slots key).isNone := by
  rcases Outcome.attempt_cases (Option.some.inj h) with ⟨hr, -⟩ | ⟨hr, -⟩
  · exact Except.ok.inj hr
  · cases hr

theorem effect_clock (s : Store) (c : Cmd) : (s.effect c).clock = s.clock := by
  cases c with
  | setNxEx key ttlSeconds =>
    simp only [Store.effect]
    split <;> rfl
  | tokenBucket | inc | dateNow | writeOutboxEvent => rfl

theorem exec_clock (h : exec c i s = some (r, s')) : s'.clock = s.clock := by
  rcases exec_cases h with rfl | ⟨rfl, -⟩
  · exact effect_clock s c
  · rfl

/-- A key that is there stays as it is, and a key that is not is set by its command only. -/
theorem effect_slots (s : Store) (c : Cmd) (key : String) :
    (s.effect c).slots key = s.slots key ∨ s.slots key = none ∧ ∃ ttlSeconds,
      c = .setNxEx key ttlSeconds ∧
        (s.effect c).slots key = some (s.clock + ttlSeconds * 1000) := by
  cases c with
  | setNxEx key' ttlSeconds =>
    simp only [Store.effect]
    split
    · exact .inl rfl
    · rename_i hkey
      by_cases hk : key = key'
      · subst hk
        exact .inr ⟨hkey, ttlSeconds, rfl, Function.update_self ..⟩
      · exact .inl (Function.update_of_ne hk _ _)
  | tokenBucket | inc | dateNow | writeOutboxEvent => exact .inl rfl

theorem effect_outbox (s : Store) (c : Cmd) : (s.effect c).outbox = s.outbox ∨
    ∃ row, c = .writeOutboxEvent row ∧ (s.effect c).outbox = row :: s.outbox := by
  cases c with
  | writeOutboxEvent row => exact .inr ⟨row, rfl, rfl⟩
  | setNxEx key ttlSeconds =>
    simp only [Store.effect]
    split <;> exact .inl rfl
  | tokenBucket | inc | dateNow => exact .inl rfl

theorem exec_outbox (h : exec c i s = some (r, s')) :
    s'.outbox = s.outbox ∨ ∃ row, c = .writeOutboxEvent row ∧ s'.outbox = row :: s.outbox := by
  rcases exec_cases h with rfl | ⟨rfl, -⟩
  · exact effect_outbox s c
  · exact .inl rfl

end Effects

/-! ## The pace of a slot -/

/-- As many windows as there have been grants have begun since the start, and the last of them ends
when the key expires. -/
structure Paced (start window grants clock : ℕ) (expiry : Option ℕ) : Prop where
  begun : start + grants * window ≤ expiry.getD clock
  expires : ∀ expireAt ∈ expiry, clock < expireAt ∧ expireAt ≤ clock + window

section Pace

variable {start window grants clock : ℕ} {expiry : Option ℕ}

theorem Paced.tick (h : Paced start window grants clock expiry) (d : ℕ) :
    Paced start window grants (clock + d) (expiry.filter fun expireAt => clock + d < expireAt) := by
  cases expiry with
  | none => exact ⟨h.begun.trans (Nat.le_add_right _ _), fun _ hat => by cases hat⟩
  | some expireAt =>
    have hbegun : start + grants * window ≤ expireAt := h.begun
    obtain ⟨-, hend⟩ := h.expires expireAt rfl
    by_cases hlive : clock + d < expireAt
    · have hkept : (some expireAt).filter (fun e => clock + d < e) = some expireAt := by
        simp [hlive]
      rw [hkept]
      refine ⟨hbegun, fun other hat => ?_⟩
      cases hat
      exact ⟨hlive, by omega⟩
    · have hgone : (some expireAt).filter (fun e => clock + d < e) = none := by
        simpa using hlive
      rw [hgone]
      exact ⟨hbegun.trans (not_lt.mp hlive), fun _ hat => by cases hat⟩

/-- The next window begins, whether it is known or not. -/
theorem Paced.claim (h : Paced start window grants clock none) (hwindow : 0 < window)
    {grants' : ℕ} (hgrants : grants' ≤ grants + 1) :
    Paced start window grants' clock (some (clock + window)) := by
  refine ⟨?_, fun _ hat => ?_⟩
  · have hbegun : start + grants * window ≤ clock := h.begun
    have hle := Nat.mul_le_mul_right window hgrants
    rw [Nat.add_mul, Nat.one_mul] at hle
    show start + grants' * window ≤ clock + window
    omega
  · cases hat
    exact ⟨by omega, le_rfl⟩

theorem Paced.bound (h : Paced start window grants clock expiry) :
    start + grants * window ≤ clock + window := by
  cases expiry with
  | none => exact h.begun.trans (Nat.le_add_right _ _)
  | some expireAt => exact h.begun.trans (h.expires expireAt rfl).2

end Pace

theorem Slot.dedupeSeconds_pos (slot : Slot) : 0 < slot.dedupeSeconds * 1000 := by
  cases slot with
  | rateLimited => exact Nat.mul_pos (Nat.succ_pos 59) (Nat.succ_pos 999)
  | degraded => exact Nat.mul_pos (Nat.succ_pos 299) (Nat.succ_pos 999)

/-- The pace of a slot since a moment at which it had been granted `before` times. -/
def PacedSlot (slot : Slot) (start before : ℕ) (c : PlatformConfig) : Prop :=
  Paced start (slot.dedupeSeconds * 1000) (total (isGrant slot) c.world.history - before)
    c.world.shared.clock (c.world.shared.slots slot.key)

section Run

variable {slot : Slot} {start before : ℕ} {b c d : PlatformConfig} {a : Action sig ℕ ℕ Op}
  {ls : List PlatformLabel}

theorem total_cons (kind : Exchange sig → Bool) (e : Event sig ℕ) (h : List (Event sig ℕ)) :
    total kind (e :: h) = total kind h + if kind ⟨e.cmd, e.ans⟩ then 1 else 0 :=
  List.countP_cons ..

theorem isGrant_iff {x : Exchange sig} : isGrant slot x = true ↔
    ∃ ttlSeconds, x = ⟨.setNxEx slot.key ttlSeconds, .ok true⟩ := by
  constructor
  · intro h
    unfold isGrant at h
    split at h
    · exact ⟨_, by rw [of_decide_eq_true h]⟩
    · cases h
  · rintro ⟨ttlSeconds, rfl⟩
    simp [isGrant]

/-- A key is left alone, or the window of its slot begins. -/
theorem slots_step {p : ℕ} {P : Proc sig ℕ Op (Except Thrown Unit)} {cmd : Cmd}
    {k : sig.Ans cmd → Program sig (Except Thrown Unit)} {i : Outcome × ℤ} {r : sig.Ans cmd}
    {s : Store} (h : System.Conforms (fun _ => Rule) (fun _ => Ended) c)
    (hp : c.procs p = some P) (hk : P.prog = .issue cmd k)
    (hx : exec cmd i c.world.shared = some (r, s)) (slot : Slot) :
    s.slots slot.key = c.world.shared.slots slot.key ∧ isGrant slot ⟨cmd, r⟩ = false ∨
      c.world.shared.slots slot.key = none ∧ (∃ ttlSeconds, cmd = .setNxEx slot.key ttlSeconds) ∧
        s.slots slot.key = some (c.world.shared.clock + slot.dedupeSeconds * 1000) := by
  have hrule := h.allowed hp hk
  have hwindow : ∀ ttlSeconds, cmd = .setNxEx slot.key ttlSeconds →
      ttlSeconds = slot.dedupeSeconds := by
    rintro ttlSeconds rfl
    obtain ⟨hkey, httl⟩ := hrule.claim
    rw [httl, Slot.key_injective hkey]
  rcases exec_cases hx with rfl | ⟨rfl, hfailed⟩
  · rcases effect_slots c.world.shared cmd slot.key with hsame | ⟨hnone, ttl, hcmd, hset⟩
    · left
      refine ⟨hsame, Bool.eq_false_iff.mpr fun hgrant => ?_⟩
      -- a grant would have set the key
      obtain ⟨ttlSeconds, heq⟩ := isGrant_iff.mp hgrant
      cases heq
      have hfree := Option.isNone_iff_eq_none.mp (claimed_of_exec (i := i) hx).symm
      simp [Store.effect, hfree] at hsame
    · right
      rw [hset, hwindow ttl hcmd]
      exact ⟨hnone, ⟨ttl, hcmd⟩, rfl⟩
  · left
    refine ⟨rfl, Bool.eq_false_iff.mpr fun hgrant => ?_⟩
    obtain ⟨ttlSeconds, heq⟩ := isGrant_iff.mp hgrant
    cases heq
    cases hfailed

theorem pacedSlot_step (h : System.Conforms (fun _ => Rule) (fun _ => Ended) c)
    (hi : PacedSlot slot start before c) (hstep : platform.Steps c a d) :
    PacedSlot slot start before d := by
  cases hstep with
  | start hp => exact hi
  | @drift n s hx =>
    cases hx
    exact hi.tick n
  | @command p i P cmd k r s hp hk hx =>
    show Paced _ _ (total _ (⟨p, cmd, r⟩ :: c.world.history) - before) s.clock (s.slots slot.key)
    rw [exec_clock hx, total_cons]
    rcases slots_step h hp hk hx slot with ⟨hsame, hno⟩ | ⟨hnone, -, hset⟩
    · rw [hsame, hno]
      exact hi
    · rw [hset]
      unfold PacedSlot at hi
      rw [hnone] at hi
      exact hi.claim slot.dedupeSeconds_pos (by split <;> omega)

/-- A moment is a start of the pace, if the slot is held for no more than a window. -/
theorem pacedSlot_self (h : ∀ expireAt ∈ b.world.shared.slots slot.key,
      b.world.shared.clock < expireAt ∧
        expireAt ≤ b.world.shared.clock + slot.dedupeSeconds * 1000) :
    PacedSlot slot b.world.shared.clock (total (isGrant slot) b.world.history) b := by
  refine ⟨?_, h⟩
  rw [Nat.sub_self, Nat.zero_mul, Nat.add_zero]
  cases hkey : b.world.shared.slots slot.key with
  | none => exact le_rfl
  | some expireAt => exact (h expireAt hkey).1.le

theorem pacedSlot_run (hconf : System.Conforms (fun _ => Rule) (fun _ => Ended) b)
    (hi : PacedSlot slot start before b) (hrun : platform.run b ls = some c) :
    PacedSlot slot start before c :=
  System.invariant_run obeys (fun _ _ _ hc hi (_ : True) hst => pacedSlot_step hc hi hst)
    hconf hi hrun (System.along_of_forall (fun _ _ => trivial) _ _)

/-- The pace since the start of the run. -/
theorem pacedSlot_init (slot : Slot) (hrun : platform.run (.init (.empty start)) ls = some c) :
    PacedSlot slot start 0 c :=
  pacedSlot_run (System.conforms_init _)
    (@pacedSlot_self slot (.init (.empty start)) fun _ hat => by cases hat) hrun

/-- Between two moments of a run a slot is granted once for every window that begins. -/
theorem spaced_run (slot : Slot) (hbefore : platform.run (.init (.empty start)) ls = some b)
    {after : List PlatformLabel} (hafter : platform.run b after = some c) :
    b.world.shared.clock + (total (isGrant slot) c.world.history -
        total (isGrant slot) b.world.history) * (slot.dedupeSeconds * 1000) ≤
      c.world.shared.clock + slot.dedupeSeconds * 1000 :=
  (pacedSlot_run (System.conforms_run obeys hbefore)
    (pacedSlot_self (pacedSlot_init slot hbefore).expires) hafter).bound

/-- What holds of the commands that have been issued and of what they have left. -/
structure Accounted (c : PlatformConfig) : Prop where
  rows : ∀ slot, c.world.shared.outbox.countP (fun row => row.slot = slot) ≤
    total (isWrite slot) c.world.history
  written : ∀ row ∈ c.world.shared.outbox,
    ∃ q r, (⟨q, .writeOutboxEvent row, r⟩ : Event sig ℕ) ∈ c.world.history
  held : ∀ (slot : Slot) expireAt, c.world.shared.slots slot.key = some expireAt →
    ∃ q ttlSeconds r, (⟨q, .setNxEx slot.key ttlSeconds, r⟩ : Event sig ℕ) ∈ c.world.history
  counted : ∀ orgId, c.world.shared.rejectedTotal orgId = total (isInc orgId) c.world.history

theorem effect_rejectedTotal (s : Store) (c : Cmd) (r : sig.Ans c) (orgId : OrgId) :
    (s.effect c).rejectedTotal orgId =
      s.rejectedTotal orgId + if isInc orgId ⟨c, r⟩ then 1 else 0 := by
  cases c with
  | inc other =>
    by_cases horg : orgId = other
    · subst horg
      simp [Store.effect, isInc]
    · simp [Store.effect, isInc, horg, Ne.symm horg]
  | setNxEx key ttlSeconds =>
    simp only [Store.effect]
    split <;> rfl
  | tokenBucket | dateNow | writeOutboxEvent => rfl

theorem accounted_step (h : System.Conforms (fun _ => Rule) (fun _ => Ended) c)
    (hi : Accounted c) (hstep : platform.Steps c a d) : Accounted d := by
  cases hstep with
  | start hp => exact ⟨hi.rows, hi.written, hi.held, hi.counted⟩
  | @drift n s hx =>
    cases hx
    refine ⟨hi.rows, hi.written, fun slot expireAt hat => hi.held slot expireAt ?_, hi.counted⟩
    exact (Option.filter_eq_some_iff.mp hat).1
  | @command p i P cmd k r s hp hk hx =>
    refine ⟨fun slot => ?_, fun row hrow => ?_, fun slot expireAt hat => ?_, fun orgId => ?_⟩
    · show s.outbox.countP _ ≤ total _ (⟨p, cmd, r⟩ :: c.world.history)
      rw [total_cons]
      rcases exec_outbox hx with hsame | ⟨row, rfl, hcons⟩
      · rw [hsame]
        exact (hi.rows slot).trans (Nat.le_add_right _ _)
      · rw [hcons, List.countP_cons]
        exact Nat.add_le_add (hi.rows slot) le_rfl
    · rcases exec_outbox hx with hsame | ⟨new, rfl, hcons⟩
      · obtain ⟨q, r', hmem⟩ := hi.written row (hsame ▸ hrow)
        exact ⟨q, r', List.mem_cons_of_mem _ hmem⟩
      · have hrow' : row ∈ new :: c.world.shared.outbox := hcons ▸ hrow
        rcases List.mem_cons.mp hrow' with rfl | hold
        · exact ⟨p, r, List.mem_cons_self⟩
        · obtain ⟨q, r', hmem⟩ := hi.written row hold
          exact ⟨q, r', List.mem_cons_of_mem _ hmem⟩
    · rcases slots_step h hp hk hx slot with ⟨hsame, -⟩ | ⟨-, ⟨ttlSeconds, rfl⟩, -⟩
      · obtain ⟨q, ttlSeconds, r', hmem⟩ := hi.held slot expireAt (hsame ▸ hat)
        exact ⟨q, ttlSeconds, r', List.mem_cons_of_mem _ hmem⟩
      · exact ⟨p, ttlSeconds, r, List.mem_cons_self⟩
    · show s.rejectedTotal orgId = total _ (⟨p, cmd, r⟩ :: c.world.history)
      rw [total_cons, ← hi.counted]
      rcases exec_cases hx with rfl | ⟨rfl, hfailed⟩
      · exact effect_rejectedTotal _ cmd r orgId
      · cases cmd with
        | inc => exact hfailed.elim
        | tokenBucket | dateNow | setNxEx | writeOutboxEvent => rfl

theorem accounted_run (hrun : platform.run (.init (.empty start)) ls = some c) : Accounted c :=
  System.invariant_run obeys (fun _ _ _ hc hi (_ : True) hst => accounted_step hc hi hst)
    (System.conforms_init _)
    ⟨fun _ => Nat.zero_le _, fun _ hrow => (List.not_mem_nil hrow).elim,
      fun _ _ hat => (Option.some_ne_none _ hat.symm).elim, fun _ => rfl⟩ hrun
    (System.along_of_forall (fun _ _ => trivial) _ _)

end Run

/-! ## What the requests and the outbox have -/

/-- The row belongs to the process: what a rejected request is told is what its row says. -/
def Backed (c : PlatformConfig) (row : Row) (p : ℕ) : Prop :=
  match row.payload with
  | .rateLimited apiKeyId seconds => ∃ P ctx, c.procs p = some P ∧
      P.op = .requireRateLimit ctx ∧ ctx.apiKeyId = apiKeyId ∧ ctx.orgId = row.orgId ∧
        ∀ r, P.prog = .done r → r = .error (.app (rateLimitError seconds))
  | .degraded provider reason => ∃ P, c.procs p = some P ∧
      P.op = .emitProviderDegradedEvent row.orgId provider reason

/-- The process has written the row, and had been granted its slot when it did. -/
structure WrittenBy (c : PlatformConfig) (row : Row) (p : ℕ) : Prop where
  claimed : ∃ r hist ttlSeconds,
    (⟨p, .writeOutboxEvent row, r⟩ : Event sig ℕ) :: hist <:+ c.world.history ∧
      (⟨p, .setNxEx row.slot.key ttlSeconds, .ok true⟩ : Event sig ℕ) ∈ hist
  backed : Backed c row p

/-- An event is suppressed only if another process has claimed the same slot less than a window
ago. -/
def Suppressed (c : PlatformConfig) : Prop :=
  ∀ p P key ttlSeconds d, c.procs p = some P →
    platform.Steps c (.command ⟨p, .setNxEx key ttlSeconds, .ok false⟩) d →
      (∃ q Q, q ≠ p ∧ c.procs q = some Q ∧ Q.op.slot = P.op.slot ∧
        ∃ ttl r, (⟨q, .setNxEx key ttl, r⟩ : Event sig ℕ) ∈ c.world.history) ∧
      ∃ expireAt, c.world.shared.slots key = some expireAt ∧ c.world.shared.clock < expireAt ∧
        expireAt ≤ c.world.shared.clock + P.op.slot.dedupeSeconds * 1000

structure Throttled (start : ℕ) (ls : List PlatformLabel) (c : PlatformConfig) : Prop where
  /-- A slot has one row for every window that has begun. -/
  paced : ∀ slot : Slot, start + c.world.shared.outbox.countP (fun row => row.slot = slot) *
    (slot.dedupeSeconds * 1000) ≤ c.world.shared.clock + slot.dedupeSeconds * 1000
  /-- It has one row for every time that it has been granted. -/
  perGrant : ∀ slot : Slot, c.world.shared.outbox.countP (fun row => row.slot = slot) ≤
    total (isGrant slot) c.world.history
  /-- Since any moment it has been granted once for every window that has begun. -/
  spaced : ∀ before after b, ls = before ++ after →
    platform.run (.init (.empty start)) before = some b → ∀ slot : Slot,
      b.world.shared.clock + (total (isGrant slot) c.world.history -
          total (isGrant slot) b.world.history) * (slot.dedupeSeconds * 1000) ≤
        c.world.shared.clock + slot.dedupeSeconds * 1000
  /-- The window that a row announces is that of its slot. -/
  announced : ∀ row ∈ c.world.shared.outbox, row.dedupeWindowSeconds = row.slot.dedupeSeconds
  written : ∀ row ∈ c.world.shared.outbox, ∃ p, WrittenBy c row p
  suppressed : Suppressed c
  answers : ∀ p P r, c.procs p = some P → P.prog = .done r →
    Ended P.op r (transcript p c.world.history)
  /-- The counter of an org is the number of requests that have been counted. -/
  counted : ∀ orgId, ∃ ps : List ℕ, ps.Nodup ∧
    ps.length = c.world.shared.rejectedTotal orgId ∧
      ∀ p, p ∈ ps ↔ (⟨p, .inc orgId, ()⟩ : Event sig ℕ) ∈ c.world.history

section Throttled

variable {start : ℕ} {c : PlatformConfig} {ls : List PlatformLabel} {row : Row}

theorem eq_of_rejected_suffix {ctx : ApiKeyContext} {now now' later later' : ℤ}
    {result result' : RateLimitResult} {t : Transcript sig}
    (h : rejected ctx now result later <:+ t) (h' : rejected ctx now' result' later' <:+ t) :
    retryAfterSeconds result later = retryAfterSeconds result' later' := by
  have heq : rejected ctx now result later = rejected ctx now' result' later' :=
    (List.suffix_of_suffix_length_le h h' le_rfl).eq_of_length rfl
  simp only [rejected, answered, List.cons.injEq, Sigma.mk.injEq, heq_eq_eq, true_and,
    Except.ok.injEq, and_true, Cmd.tokenBucket.injEq] at heq
  obtain ⟨rfl, ⟨-, rfl⟩, -⟩ := heq
  rfl

/-- A row is written after its slot has been granted. -/
theorem Rule.granted {op : Op} {t : Transcript sig} (h : Rule op t (.writeOutboxEvent row)) :
    ∃ ttlSeconds, (⟨.setNxEx row.slot.key ttlSeconds, .ok true⟩ : Exchange sig) ∈ t := by
  cases h with
  | emit ctx now result later hdenied hemit =>
    cases hemit
    exact ⟨_, List.mem_cons_of_mem _ List.mem_cons_self⟩
  | degraded orgId provider reason hemit =>
    cases hemit
    exact ⟨_, List.mem_cons_of_mem _ List.mem_cons_self⟩

theorem writtenBy_of_mem (h : System.Conforms (fun _ => Rule) (fun _ => Ended) c)
    (ha : Accounted c) (hrow : row ∈ c.world.shared.outbox) : ∃ p, WrittenBy c row p := by
  obtain ⟨q, r, hmem⟩ := ha.written row hrow
  obtain ⟨P, hist, hP, hsuf, hrule⟩ := h.exists_of_mem hmem
  obtain ⟨ttlSeconds, hgranted⟩ := hrule.granted
  refine ⟨q, ⟨r, hist, ttlSeconds, hsuf, mem_transcript.mp hgranted⟩, ?_⟩
  have ht : transcript q hist <:+ transcript q c.world.history :=
    transcript_suffix ((List.suffix_cons _ _).trans hsuf)
  obtain ⟨op, since, prog⟩ := P
  generalize transcript q hist = t at hrule ht
  cases hrule with
  | emit ctx now result later hdenied hemit =>
    cases hemit with
    | write occurredAt =>
      refine ⟨_, ctx, hP, rfl, rfl, rfl, fun x hx => ?_⟩
      have hbefore : rejected ctx now result later <:+ transcript q c.world.history :=
        ((List.suffix_cons _ _).trans (List.suffix_cons _ _)).trans ht
      have hended := h.result hP hx
      generalize transcript q c.world.history = T at hended hbefore
      cases hended with
      | failed _ now' e => exact absurd hbefore.length_le (by simp [rejected, answered])
      | admitted _ now' result' _ => exact absurd hbefore.length_le (by simp [rejected, answered])
      | rejected _ now' result' later' _ hafter =>
        rw [eq_of_rejected_suffix hbefore hafter]
  | degraded orgId provider reason hemit =>
    cases hemit with
    | write occurredAt => exact ⟨_, hP, rfl⟩

theorem announced_of_mem (h : System.Conforms (fun _ => Rule) (fun _ => Ended) c)
    (ha : Accounted c) (hrow : row ∈ c.world.shared.outbox) :
    row.dedupeWindowSeconds = row.slot.dedupeSeconds := by
  obtain ⟨q, r, hmem⟩ := ha.written row hrow
  obtain ⟨P, hist, -, -, hrule⟩ := h.exists_of_mem hmem
  obtain ⟨hslot, hwindow⟩ := hrule.write
  rw [hslot, hwindow]

/-- A process has claimed nothing when it issues its `SET`. -/
theorem Rule.claim_first {op : Op} {t : Transcript sig} {key : String} {ttlSeconds : ℕ}
    (h : Rule op t (.setNxEx key ttlSeconds)) (key' : String) (ttl : ℕ) (r : Except Thrown Bool) :
    (⟨.setNxEx key' ttl, r⟩ : Exchange sig) ∉ t := by
  cases h with
  | emit ctx now result later h hemit =>
    cases hemit
    simp [rejected, answered]
  | degraded orgId provider reason hemit =>
    cases hemit
    simp

theorem suppressed (h : System.Conforms (fun _ => Rule) (fun _ => Ended) c) (ha : Accounted c)
    (hpaced : ∀ slot, PacedSlot slot start 0 c) : Suppressed c := by
  intro p P key ttlSeconds d hP hstep
  cases hstep with
  | @command _ i P' _ k _ s hp hk hx =>
    obtain rfl := Option.some.inj (hP.symm.trans hp)
    have hrule := h.allowed hp hk
    obtain ⟨rfl, -⟩ := hrule.claim
    cases hkey : c.world.shared.slots P.op.slot.key with
    | none =>
      have hclaimed := claimed_of_exec (i := i) hx
      rw [hkey] at hclaimed
      cases hclaimed
    | some expireAt =>
      obtain ⟨q, ttl, r, hmem⟩ := ha.held P.op.slot expireAt hkey
      obtain ⟨Q, hist, hQ, -, hclaim⟩ := h.exists_of_mem hmem
      obtain ⟨hlive, hend⟩ := (hpaced P.op.slot).expires expireAt hkey
      refine ⟨⟨q, Q, ?_, hQ, ?_, ttl, r, hmem⟩, expireAt, rfl, hlive, hend⟩
      · rintro rfl
        exact hrule.claim_first _ ttl r (mem_transcript.mpr hmem)
      · exact Slot.key_injective hclaim.claim.1.symm

theorem incs_le_one (h : System.Conforms (fun _ => Rule) (fun _ => Ended) c) (orgId : OrgId)
    (p : ℕ) : (transcript p c.world.history).countP (isInc orgId) ≤ 1 := by
  refine h.transcript_induction (I := fun t => t.countP (isInc orgId) ≤ 1) (Nat.zero_le _) ?_ p
  intro q op t cmd r hrule hle
  cases cmd with
  | inc other =>
    cases hrule with
    | count ctx now result hdenied =>
      rw [List.countP_cons]
      by_cases horg : ctx.orgId = orgId <;> simp [answered, isInc, horg]
    | emit ctx now result later hdenied hemit => cases hemit
    | degraded orgId provider reason hemit => cases hemit
  | tokenBucket | dateNow | setNxEx | writeOutboxEvent => simpa [isInc] using hle

theorem counted (h : System.Conforms (fun _ => Rule) (fun _ => Ended) c) (ha : Accounted c)
    (orgId : OrgId) : ∃ ps : List ℕ, ps.Nodup ∧
      ps.length = c.world.shared.rejectedTotal orgId ∧
        ∀ p, p ∈ ps ↔ (⟨p, .inc orgId, ()⟩ : Event sig ℕ) ∈ c.world.history := by
  refine ⟨(c.world.history.filter fun e => isInc orgId ⟨e.cmd, e.ans⟩).map Event.pid,
    List.nodup_iff_count_le_one.mpr fun p => ?_, ?_, fun p => ?_⟩
  · have hcount := incs_le_one h orgId p
    rw [transcript, List.countP_map, own, List.countP_filter] at hcount
    rw [List.count, List.countP_map, List.countP_filter]
    refine le_trans (le_of_eq (List.countP_congr fun e _ => ?_)) hcount
    simp [and_comm]
  · rw [List.length_map, ← List.countP_eq_length_filter, ha.counted]
    rfl
  · rw [List.mem_map]
    constructor
    · rintro ⟨⟨q, cmd, r⟩, hfound, rfl⟩
      obtain ⟨hmem, hinc⟩ := List.mem_filter.mp hfound
      cases cmd with
      | inc other =>
        obtain rfl := of_decide_eq_true hinc
        exact hmem
      | tokenBucket | dateNow | setNxEx | writeOutboxEvent => cases hinc
    · intro hmem
      exact ⟨_, List.mem_filter.mpr ⟨hmem, by simp [isInc]⟩, rfl⟩

end Throttled

/-- In every run, however many requests are rejected and whatever fails, each slot is granted once
for every window, each event is written by a process that has been granted its slot, and what
becomes of the events changes no answer. -/
theorem throttled_run {start : ℕ} {ls : List PlatformLabel} {c : PlatformConfig}
    (hrun : platform.run (.init (.empty start)) ls = some c) : Throttled start ls c := by
  have hconf : System.Conforms (fun _ => Rule) (fun _ => Ended) c := System.conforms_run obeys hrun
  have haccounted := accounted_run hrun
  have hrows : ∀ slot : Slot, c.world.shared.outbox.countP (fun row => row.slot = slot) ≤
      total (isGrant slot) c.world.history := fun slot =>
    (haccounted.rows slot).trans (writes_le_grants hconf slot)
  refine ⟨fun slot => ?_, hrows, fun before after b hls hbefore slot => ?_,
    fun _ hrow => announced_of_mem hconf haccounted hrow,
    fun _ hrow => writtenBy_of_mem hconf haccounted hrow,
    suppressed hconf haccounted fun slot => pacedSlot_init slot hrun,
    fun _ _ _ hp hr => hconf.result hp hr, counted hconf haccounted⟩
  · have hbound := (pacedSlot_init slot hrun).bound
    rw [Nat.sub_zero] at hbound
    have hle := Nat.mul_le_mul_right (slot.dedupeSeconds * 1000) (hrows slot)
    omega
  · rw [hls] at hrun
    obtain ⟨b', hbefore', hafter⟩ := System.run_append.mp hrun
    cases hbefore.symm.trans hbefore'
    exact spaced_run slot hbefore hafter

/-- A key with one request a minute. -/
def onePerMinute : ApiKeyContext where
  apiKeyId := ⟨"00000000-0000-0000-0000-00000000000e", by decide⟩
  orgId := tenantA
  rateLimitRpm := 1

/-- The first of three requests is admitted, and the second has its event written. -/
def burstLabels : List PlatformLabel :=
  ([.start 0 (.requireRateLimit onePerMinute), .start 1 (.requireRateLimit onePerMinute),
    .start 2 (.requireRateLimit onePerMinute)] : List PlatformLabel) ++
    List.replicate 2 (.step 0 (.answered, 0) : PlatformLabel) ++
    List.replicate 7 (.step 1 (.answered, 0) : PlatformLabel) ++
    List.replicate 5 (.step 2 (.answered, 0) : PlatformLabel)

theorem throttled_run_burst : ∃ c, platform.run (.init (.empty 0)) burstLabels = some c ∧
    c.world.shared.outbox.length = 1 ∧ Throttled 0 burstLabels c := by
  have hany : (platform.run (.init (.empty 0)) burstLabels).any
      (fun c => c.world.shared.outbox.length = 1) = true := by decide +kernel
  obtain ⟨c, hrun, hrows⟩ := (Option.any_eq_true _ _).mp hany
  exact ⟨c, hrun, of_decide_eq_true hrows, throttled_run hrun⟩

/-! ## When the next request is admitted -/

section Admission

variable {config : TokenBucketConfig} {call next : Call} {bucket : Option Bucket}

/-- The refill of a bucket that is there, whatever has left it. -/
theorem refilled_stored (config : TokenBucketConfig) (next : Call) (b : Bucket) :
    refilled config next (some b) =
      if b.expireAt ≤ next.clock then config.capacity
      else min config.capacity
        (b.tokens + max 0 ((next.now - b.lastRefill) / 1000) * config.refillPerSecond) := by
  unfold refilled alive
  by_cases hexpired : b.expireAt ≤ next.clock
  · simp [Option.filter, not_lt.mpr hexpired, hexpired]
  · simp [Option.filter, not_le.mp hexpired, hexpired]

theorem tokenBucket_denied (hcall : call.requested = 1)
    (hdenied : (RateLimiter.tokenBucket config call bucket).1.allowed = false) :
    refilled config call bucket < 1 ∧ RateLimiter.tokenBucket config call bucket =
      (⟨false, ⌊refilled config call bucket⌋, call.now +
        (1 - refilled config call bucket) / config.refillPerSecond * 1000⟩,
        ⟨refilled config call bucket, call.now, call.clock + ttlMs config⟩) := by
  have hno := of_decide_eq_false (p := call.requested ≤ refilled config call bucket) hdenied
  rw [hcall] at hno
  have hless := not_le.mp hno
  have hdeficit : max 0 (1 - refilled config call bucket) = 1 - refilled config call bucket :=
    max_eq_right (by linarith)
  refine ⟨hless, ?_⟩
  simp only [RateLimiter.tokenBucket, script, hcall, decide_eq_false hno, Bool.false_eq_true,
    if_false, hdeficit]

/-- After a rejection the next call is admitted from the time on that the rejected one has been
given, or when the key has expired. -/
theorem tokenBucket_next (hcapacity : 1 ≤ config.capacity) (hcall : call.requested = 1)
    (hnext : next.requested = 1)
    (hdenied : (RateLimiter.tokenBucket config call bucket).1.allowed = false) :
    (RateLimiter.tokenBucket config next
        (some (RateLimiter.tokenBucket config call bucket).2)).1.allowed = true ↔
      call.clock + ttlMs config ≤ next.clock ∨
        (RateLimiter.tokenBucket config call bucket).1.resetAt ≤ next.now := by
  have hrefill := config.refill_pos
  obtain ⟨hless, hleft⟩ := tokenBucket_denied hcall hdenied
  rw [hleft]
  show decide (next.requested ≤ refilled config next _) = true ↔ _
  rw [decide_eq_true_iff, hnext, refilled_stored]
  by_cases hexpired : call.clock + ttlMs config ≤ next.clock
  · rw [if_pos hexpired]
    exact ⟨fun _ => .inl hexpired, fun _ => hcapacity⟩
  · rw [if_neg hexpired, le_min_iff]
    -- what is missing is what the time brings
    have hreset : call.now + (1 - refilled config call bucket) / config.refillPerSecond * 1000 ≤
        next.now ↔ 1 ≤ refilled config call bucket +
          (next.now - call.now) / 1000 * config.refillPerSecond := by
      rw [← le_sub_iff_add_le', ← le_div_iff₀ (by norm_num), div_le_iff₀ hrefill,
        sub_le_iff_le_add']
    show _ ↔ _ ∨ call.now + _ ≤ next.now
    rw [hreset]
    constructor
    · rintro ⟨-, hle⟩
      right
      rcases max_cases 0 ((next.now - call.now) / 1000) with ⟨heq, -⟩ | ⟨heq, -⟩
      · rw [heq, zero_mul, add_zero] at hle
        exact absurd hle (not_le.mpr hless)
      · rwa [heq] at hle
    · rintro (h | h)
      · exact absurd h hexpired
      · have hmore := mul_le_mul_of_nonneg_right
          (le_max_right 0 ((next.now - call.now) / 1000)) hrefill.le
        exact ⟨hcapacity, h.trans (by linarith)⟩

end Admission

/-- A call on the bucket of the key. -/
def onBucket (apiKeyId : Uuid) : Exchange sig → Bool
  | ⟨.tokenBucket id .., _⟩ => id = apiKeyId
  | _ => false

/-- The last call on a bucket, if it is known what has become of it, has left it as it is. -/
def LastCall (c : PlatformConfig) : Prop :=
  ∀ p apiKeyId rateLimitRpm now result,
    c.world.history.find? (fun e => onBucket apiKeyId ⟨e.cmd, e.ans⟩) =
      some ⟨p, .tokenBucket apiKeyId rateLimitRpm now, .ok result⟩ →
    ∃ (clock : ℕ) (bucket : Option Bucket),
      result = (RateLimiter.tokenBucket (bucketConfig rateLimitRpm) (bucketCall clock now)
        bucket).1 ∧
      c.world.shared.buckets apiKeyId = some (RateLimiter.tokenBucket (bucketConfig rateLimitRpm)
        (bucketCall clock now) bucket).2

/-- If the last request of a key has been rejected, the next one is admitted iff the bucket has
expired or the time has come that the rejected one has been given. Who has waited for the seconds of
`Retry-After` comes late enough. -/
def Admits (c : PlatformConfig) : Prop :=
  ∀ p apiKeyId rateLimitRpm now result,
    c.world.history.find? (fun e => onBucket apiKeyId ⟨e.cmd, e.ans⟩) =
      some ⟨p, .tokenBucket apiKeyId rateLimitRpm now, .ok result⟩ → result.allowed = false →
    ∃ b, c.world.shared.buckets apiKeyId = some b ∧
      ∀ q now' result' d, platform.Steps c
          (.command ⟨q, .tokenBucket apiKeyId rateLimitRpm now', .ok result'⟩) d →
        (result'.allowed = true ↔ b.expireAt ≤ c.world.shared.clock ∨ result.resetAt ≤ now') ∧
        ∀ later : ℤ, later + 1000 * max 1 ⌈retryAfterSeconds result later⌉ ≤ now' →
          result'.allowed = true

section Admits

variable {start : ℕ} {c d : PlatformConfig} {a : Action sig ℕ ℕ Op} {ls : List PlatformLabel}
  {s s' : Store} {apiKeyId : Uuid} {rateLimitRpm : ℕ+} {now : ℤ} {i : Outcome × ℤ}

theorem effect_buckets (s : Store) (c : Cmd) (r : sig.Ans c)
    (h : onBucket apiKeyId ⟨c, r⟩ = false) :
    (s.effect c).buckets apiKeyId = s.buckets apiKeyId := by
  cases c with
  | tokenBucket id rateLimitRpm now =>
    have hne : apiKeyId ≠ id := Ne.symm (of_decide_eq_false h)
    exact Function.update_of_ne hne _ _
  | setNxEx key ttlSeconds =>
    simp only [Store.effect]
    split <;> rfl
  | inc | dateNow | writeOutboxEvent => rfl

theorem take_of_exec {result : RateLimitResult}
    (h : exec (.tokenBucket apiKeyId rateLimitRpm now) i s = some (.ok result, s')) :
    result = (s.take apiKeyId rateLimitRpm now).1 ∧
      s'.buckets apiKeyId = some (s.take apiKeyId rateLimitRpm now).2 := by
  rcases Outcome.attempt_cases (Option.some.inj h) with ⟨hr, rfl⟩ | ⟨hr, -⟩
  · exact ⟨Except.ok.inj hr, Function.update_self ..⟩
  · cases hr

theorem lastCall_step (hi : LastCall c) (hstep : platform.Steps c a d) : LastCall d := by
  cases hstep with
  | start hp => exact hi
  | drift hx => cases hx; exact hi
  | @command q i P cmd k r s hp hk hx =>
    intro p apiKeyId rateLimitRpm now result hlast
    rw [World.after_history, List.find?_cons] at hlast
    cases hon : onBucket apiKeyId ⟨cmd, r⟩ with
    | true =>
      rw [hon] at hlast
      cases hlast
      obtain ⟨hresult, hleft⟩ := take_of_exec (i := i) hx
      exact ⟨_, _, hresult, hleft⟩
    | false =>
      rw [hon] at hlast
      obtain ⟨clock, bucket, hresult, hleft⟩ := hi p apiKeyId rateLimitRpm now result hlast
      refine ⟨clock, bucket, hresult, ?_⟩
      rw [← hleft]
      rcases exec_cases hx with rfl | ⟨rfl, -⟩
      · exact effect_buckets _ cmd r hon
      · rfl

theorem lastCall_run (hrun : platform.run (.init (.empty start)) ls = some c) : LastCall c :=
  System.run_induction (fun _ _ _ hi (_ : True) hst => lastCall_step hi hst)
    (fun _ _ _ _ _ hlast => (Option.some_ne_none _ hlast.symm).elim) hrun
    (System.along_of_forall (fun _ _ => trivial) _ _)

theorem one_le_capacity (rateLimitRpm : ℕ+) : 1 ≤ (bucketConfig rateLimitRpm).capacity := by
  show (1 : ℚ) ≤ ((rateLimitRpm : ℕ) : ℚ)
  exact_mod_cast rateLimitRpm.pos

/-- The header is rounded up. -/
theorem resetAt_le (result : RateLimitResult) (later : ℤ) :
    result.resetAt ≤ later + 1000 * max 1 ⌈retryAfterSeconds result later⌉ := by
  have hceil := Int.le_ceil (retryAfterSeconds result later)
  have hmax : (⌈retryAfterSeconds result later⌉ : ℚ) ≤
      ((max 1 ⌈retryAfterSeconds result later⌉ : ℤ) : ℚ) := by exact_mod_cast le_max_right _ _
  have hseconds : retryAfterSeconds result later * 1000 = result.resetAt - later := by
    unfold retryAfterSeconds
    ring
  linarith

/-- In every run the next request of a key that has been rejected is admitted when its time has
come, and not before. The arithmetic is exact: the script stores the tokens as decimals of fourteen
digits, and a request at the very time may miss the last of them. -/
theorem admits_run (hrun : platform.run (.init (.empty start)) ls = some c) : Admits c := by
  intro p apiKeyId rateLimitRpm now result hlast hdenied
  obtain ⟨clock, bucket, rfl, hleft⟩ := lastCall_run hrun p apiKeyId rateLimitRpm now result hlast
  refine ⟨_, hleft, fun q now' result' d hstep => ?_⟩
  cases hstep with
  | @command _ i P _ k _ s hp hk hx =>
    obtain ⟨rfl, -⟩ := take_of_exec (i := i) hx
    have hnext := @tokenBucket_next (bucketConfig rateLimitRpm) (bucketCall clock now)
      (bucketCall c.world.shared.clock now') bucket (one_le_capacity rateLimitRpm) rfl rfl hdenied
    unfold Store.take
    rw [hleft]
    refine ⟨hnext, fun later hwait => hnext.mpr (.inr ?_)⟩
    have hle := resetAt_le (RateLimiter.tokenBucket (bucketConfig rateLimitRpm)
      (bucketCall clock now) bucket).1 later
    refine hle.trans ?_
    show _ ≤ (now' : ℚ)
    exact_mod_cast hwait

theorem admits_run_burst : ∃ c, platform.run (.init (.empty 0)) burstLabels = some c ∧
    Admits c := by
  have hsome : (platform.run (.init (.empty 0)) burstLabels).isSome = true := by decide +kernel
  obtain ⟨c, hrun⟩ := Option.isSome_iff_exists.mp hsome
  exact ⟨c, hrun, admits_run hrun⟩

end Admits

end CloudMesh.Gateway.PlatformEvents
