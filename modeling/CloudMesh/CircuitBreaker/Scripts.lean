import CloudMesh.Errors
import CloudMesh.Concurrent.Program

/-!
# The circuit breaker's scripts

`packages/circuit-breaker/src/circuitBreaker.ts`: the hash `circuit:<name>`, the two Lua scripts,
`withCircuitBreaker` and the three utilities. A script is one atomic function of the stored key,
Redis' own clock (which `EXPIRE` counts from) and the script's arguments; `now` is an argument,
so it can lie before the clock.

## Main definitions

- `CircuitKey` — the hash with its time to live
- `attemptScript`, `reportScript` — `ATTEMPT_SCRIPT` and `REPORT_SCRIPT`
- `withCircuitBreaker` — the wrapper around a call
-/

namespace CloudMesh.CircuitBreaker

/-- `"closed" | "open" | "half_open"`. -/
inductive CircuitState
  | closed
  | opened
  | halfOpen
  deriving DecidableEq, Repr

structure CircuitBreakerConfig where
  failureThreshold : ℕ
  failureWindowMs : ℕ
  openDurationMs : ℕ
  deriving DecidableEq

def ttlSeconds : ℤ := 3600

/-- The fields of the hash; `none` is a field that is not set. -/
structure CircuitHash where
  state : Option CircuitState
  failures : Option ℕ
  windowStart : Option ℤ
  openedAt : Option ℤ
  probeTaken : Option String
  deriving DecidableEq, Repr

def CircuitHash.empty : CircuitHash := ⟨none, none, none, none, none⟩

/-- `HSET` with the fields of `g` that are set. -/
def CircuitHash.hset (h g : CircuitHash) : CircuitHash where
  state := g.state <|> h.state
  failures := g.failures <|> h.failures
  windowStart := g.windowStart <|> h.windowStart
  openedAt := g.openedAt <|> h.openedAt
  probeTaken := g.probeTaken <|> h.probeTaken

/-- What is stored under the key: a missing key has no field and no expiry. -/
structure CircuitKey where
  hash : CircuitHash
  expireAt : Option ℤ
  deriving DecidableEq, Repr

namespace CircuitKey

def missing : CircuitKey := ⟨.empty, none⟩

/-- `HSET` keeps the key's time to live. -/
def hset (key : CircuitKey) (fields : CircuitHash) : CircuitKey :=
  { key with hash := key.hash.hset fields }

/-- `EXPIRE` does nothing to a missing key. -/
def expire (key : CircuitKey) (clock : ℤ) : CircuitKey :=
  if key.hash = .empty then key else { key with expireAt := some (clock + 1000 * ttlSeconds) }

/-- The key as Redis shows it at `clock`: it is gone once its time to live is over. -/
def purge (key : CircuitKey) (clock : ℤ) : CircuitKey :=
  match key.expireAt with
  | none => key
  | some t => if t ≤ clock then missing else key

/-- `state or "closed"`. -/
def state (key : CircuitKey) : CircuitState := key.hash.state.getD .closed

/-- `tonumber(openedAt) or 0`. -/
def openedAt (key : CircuitKey) : ℤ := key.hash.openedAt.getD 0

/-- `tonumber(failures) or 0`. -/
def failures (key : CircuitKey) : ℕ := key.hash.failures.getD 0

end CircuitKey

/-- `ATTEMPT_SCRIPT`: whether the caller may proceed, and in which state the circuit then is. -/
def attemptScript (config : CircuitBreakerConfig) (clock now : ℤ) (key : CircuitKey) :
    (Bool × CircuitState) × CircuitKey :=
  match key.state with
  | .closed =>
    match key.hash.windowStart with
    | none => ((true, .closed), key.hset { CircuitHash.empty with windowStart := some now })
    | some windowStart =>
      -- the first attempt after the window begins a new one
      if now - windowStart > config.failureWindowMs then
        ((true, .closed),
          key.hset { CircuitHash.empty with failures := some 0, windowStart := some now })
      else ((true, .closed), key)
  | .opened =>
    -- the caller that finds the cool-down over takes the probe itself
    if now - key.openedAt ≥ config.openDurationMs then
      ((true, .halfOpen),
        (key.hset { CircuitHash.empty with
          state := some .halfOpen, probeTaken := some "1" }).expire clock)
    else ((false, .opened), key)
  | .halfOpen =>
    if key.hash.probeTaken = some "1" then ((false, .halfOpen), key)
    else ((true, .halfOpen), key.hset { CircuitHash.empty with probeTaken := some "1" })

/-- `REPORT_SCRIPT`: the outcome of a call that was let through. Its last branch answers
`"closed"` whatever the stored state is. -/
def reportScript (config : CircuitBreakerConfig) (clock now : ℤ) (success : Bool)
    (key : CircuitKey) : CircuitState × CircuitKey :=
  if success then
    match key.state with
    | .halfOpen =>
      (.closed, (key.hset { CircuitHash.empty with
        state := some .closed, failures := some 0, windowStart := some now,
        probeTaken := some "0" }).expire clock)
    | state => (state, key)
  else
    match key.state with
    | .halfOpen =>
      (.opened, (key.hset { CircuitHash.empty with
        state := some .opened, openedAt := some now, probeTaken := some "0" }).expire clock)
    | _ =>
      -- also a late report: the stored state may be open
      let failures := key.failures + 1
      if failures ≥ config.failureThreshold then
        (.opened, (key.hset { CircuitHash.empty with
          state := some .opened, openedAt := some now, failures := some failures }).expire clock)
      else
        (.closed, (key.hset { CircuitHash.empty with failures := some failures }).expire clock)

/-- The fields that `forceOpenCircuit` sets. -/
def forceOpenFields (now : ℤ) : CircuitHash :=
  { CircuitHash.empty with
    state := some .opened, openedAt := some now, probeTaken := some "0" }

/-! ## What the scripts do to the fields -/

section Fields

variable {config : CircuitBreakerConfig} {clock now : ℤ} {success : Bool} {key : CircuitKey}

@[simp] theorem state_hset (fields : CircuitHash) :
    (key.hset fields).state = fields.state.getD key.state := by
  cases hs : fields.state <;> simp [CircuitKey.state, CircuitKey.hset, CircuitHash.hset, hs]

@[simp] theorem openedAt_hset (fields : CircuitHash) :
    (key.hset fields).openedAt = fields.openedAt.getD key.openedAt := by
  cases hs : fields.openedAt <;> simp [CircuitKey.openedAt, CircuitKey.hset, CircuitHash.hset, hs]

@[simp] theorem probeTaken_hset (fields : CircuitHash) :
    (key.hset fields).hash.probeTaken = (fields.probeTaken <|> key.hash.probeTaken) := rfl

@[simp] theorem expire_hash : (key.expire clock).hash = key.hash := by
  unfold CircuitKey.expire
  split <;> rfl

@[simp] theorem state_expire : (key.expire clock).state = key.state := by
  simp [CircuitKey.state]

@[simp] theorem openedAt_expire : (key.expire clock).openedAt = key.openedAt := by
  simp [CircuitKey.openedAt]

@[simp] theorem state_missing : CircuitKey.missing.state = .closed := rfl

theorem purge_eq_missing_or (key : CircuitKey) (clock : ℤ) :
    key.purge clock = key ∨ key.purge clock = .missing := by
  unfold CircuitKey.purge
  split
  · exact .inl rfl
  · split
    · exact .inr rfl
    · exact .inl rfl

/-- Everything `ATTEMPT_SCRIPT` can do. -/
inductive Attempted (config : CircuitBreakerConfig) (now : ℤ) (key : CircuitKey) :
    Bool × CircuitState → CircuitKey → Prop
  | closed {key'} (h : key.state = .closed) (h' : key'.state = .closed) :
      Attempted config now key (true, .closed) key'
  | probe {key'} (h : key.state = .opened ∧ now - key.openedAt ≥ config.openDurationMs ∨
        key.state = .halfOpen ∧ key.hash.probeTaken ≠ some "1")
      (h' : key'.state = .halfOpen) (hp : key'.hash.probeTaken = some "1") :
      Attempted config now key (true, .halfOpen) key'
  | refused {state} (hs : key.state = state)
      (h : key.state = .opened ∧ now - key.openedAt < config.openDurationMs ∨
        key.state = .halfOpen ∧ key.hash.probeTaken = some "1") :
      Attempted config now key (false, state) key

theorem attempted : Attempted config now key (attemptScript config clock now key).1
    (attemptScript config clock now key).2 := by
  unfold attemptScript
  cases hs : key.state with
  | closed =>
    dsimp only
    split
    · exact .closed hs (by simp [CircuitHash.empty, hs])
    · split
      · exact .closed hs (by simp [CircuitHash.empty, hs])
      · exact .closed hs hs
  | opened =>
    dsimp only
    split
    · next h => exact .probe (.inl ⟨hs, h⟩) (by simp) (by simp)
    · next h => exact .refused hs (.inl ⟨hs, not_le.mp h⟩)
  | halfOpen =>
    dsimp only
    split
    · next h => exact .refused hs (.inr ⟨hs, h⟩)
    · next h => exact .probe (.inr ⟨hs, h⟩) (by simp [CircuitHash.empty, hs]) (by simp)

/-- A failure `REPORT` that writes `openedAt`. -/
def Trips (config : CircuitBreakerConfig) (key : CircuitKey) : Prop :=
  key.state = .halfOpen ∨ config.failureThreshold ≤ key.failures + 1

instance : Decidable (Trips config key) := inferInstanceAs (Decidable (_ ∨ _))

/-- Everything `REPORT_SCRIPT` can do to the state and to `openedAt`. -/
inductive Reported (config : CircuitBreakerConfig) (now : ℤ) (key : CircuitKey) :
    Bool → CircuitKey → Prop
  | recovered {key'} (h : key.state = .halfOpen) (h' : key'.state = .closed) :
      Reported config now key true key'
  | tripped {key'} (h : Trips config key) (h' : key'.state = .opened)
      (ho : key'.openedAt = now) : Reported config now key false key'
  | counted {success key'} (h : key.state ≠ .halfOpen) (h' : key'.state = key.state)
      (ho : key'.openedAt = key.openedAt) : Reported config now key success key'

theorem reported :
    Reported config now key success (reportScript config clock now success key).2 := by
  unfold reportScript
  cases success with
  | true =>
    cases hs : key.state with
    | halfOpen => exact .recovered hs (by simp)
    | closed | opened => exact .counted (by simp [hs]) rfl rfl
  | false =>
    cases hs : key.state with
    | halfOpen => exact .tripped (.inl hs) (by simp) (by simp)
    | closed | opened =>
      simp only [Bool.false_eq_true, if_false]
      split
      · next h => exact .tripped (.inr h) (by simp) (by simp)
      · exact .counted (by simp [hs]) (by simp [CircuitHash.empty]) (by simp [CircuitHash.empty])

theorem state_ne_halfOpen_of_report :
    (reportScript config clock now success key).2.state ≠ .halfOpen := by
  have h := @reported config clock now success key
  cases h <;> simp_all

end Fields

/-! ## The wrapper -/

/-- The two scripts as commands of the Redis client, in the monad of the caller. -/
structure CircuitRedis (m : Type → Type) where
  evalAttempt : String → ℤ → CircuitBreakerConfig → m (Bool × CircuitState)
  evalReport : String → ℤ → Bool → CircuitBreakerConfig → m CircuitState

/-- Both `REPORT`s are given the `now` of the call's start, and the first one lies inside the
`try` block. -/
def withCircuitBreaker {m : Type → Type} [Monad m] [MonadExceptOf Thrown m] {α : Type}
    (redis : CircuitRedis m) (name : String) (config : CircuitBreakerConfig) (fn : m α)
    (now : ℤ) : m α := do
  let (allowed, _) ← redis.evalAttempt name now config
  if allowed then
    tryCatch
      (do
        let result ← fn
        let _ ← redis.evalReport name now true config
        pure result)
      fun err => do
        let _ ← redis.evalReport name now false config
        throw err
  else throw (.circuitOpen name)

end CloudMesh.CircuitBreaker
