import Mathlib.Algebra.Order.Field.Rat
import Mathlib.Algebra.Order.Ring.Rat
import Mathlib.Data.Rat.Floor
import Mathlib.Tactic.Linarith
import Mathlib.Tactic.NormNum
import Mathlib.Tactic.Ring
import Mathlib.Tactic.FieldSimp

/-!
# The token bucket under clock skew

`packages/rate-limiter/src/tokenBucket.ts` in exact arithmetic. Every call writes its own timestamp
as the time of the last refill, also when it is older than the one before. Time that has been
credited is then credited again: what can be admitted is not bounded by the span of the timestamps
but by the sum of all steps forward from one call to the next.

## Main definitions

- `script`, `tokenBucket` — one call
- `admitted` — the cost that a sequence of calls is admitted
- `Limited` — the bound by the span of the timestamps, and the range of the tokens
- `gains` — the tokens that the calls can be credited
- `limited_iff` — the bound holds whatever the calls cost iff the span covers the gains
-/

namespace CloudMesh.RateLimiter

/-! ## `tokenBucket.ts` -/

structure TokenBucketConfig where
  capacity : ℚ
  refillPerSecond : ℚ
  capacity_pos : 0 < capacity
  refill_pos : 0 < refillPerSecond

/-- The hash under the key, and when the key expires on the clock of Redis. -/
structure Bucket where
  tokens : ℚ
  lastRefill : ℚ
  expireAt : ℚ
  deriving DecidableEq

/-- One call: the clock of Redis, the timestamp of the caller, both in milliseconds, and the
cost. -/
structure Call where
  clock : ℚ
  now : ℚ
  requested : ℚ
  deriving DecidableEq

section Code

variable (config : TokenBucketConfig)

def ttlMs : ℚ := (⌈config.capacity / config.refillPerSecond⌉ + 60) * 1000

/-- What is left of the key. -/
def alive (clock : ℚ) (bucket : Option Bucket) : Option Bucket :=
  bucket.filter fun b => clock < b.expireAt

/-- The tokens after the refill. -/
def refilled (call : Call) (bucket : Option Bucket) : ℚ :=
  let (tokens, lastRefill) :=
    match alive call.clock bucket with
    | none => (config.capacity, call.now)
    | some b => (b.tokens, b.lastRefill)
  -- a clock that goes back refills nothing
  let elapsedSeconds := max 0 ((call.now - lastRefill) / 1000)
  min config.capacity (tokens + elapsedSeconds * config.refillPerSecond)

/-- `SCRIPT`: whether the call is allowed, with the tokens that are left. -/
def script (call : Call) (bucket : Option Bucket) : Bool × Bucket :=
  let tokens := refilled config call bucket
  let allowed := decide (call.requested ≤ tokens)
  let tokens := if allowed then tokens - call.requested else tokens
  (allowed, ⟨tokens, call.now, call.clock + ttlMs config⟩)

structure RateLimitResult where
  allowed : Bool
  remaining : ℚ
  resetAt : ℚ
  deriving DecidableEq

def tokenBucket (call : Call) (bucket : Option Bucket) : RateLimitResult × Bucket :=
  let (allowed, b) := script config call bucket
  let deficit := max 0 (call.requested - b.tokens)
  (⟨allowed, ⌊b.tokens⌋, call.now + deficit / config.refillPerSecond * 1000⟩, b)

end Code

/-! ## Sequences of calls -/

section Definitions

variable (config : TokenBucketConfig)

/-- The bucket after the calls. -/
def after (bucket : Option Bucket) : List Call → Option Bucket :=
  List.foldl (fun bucket call => some (tokenBucket config call bucket).2) bucket

/-- What the allowed calls have cost. -/
def admitted (bucket : Option Bucket) : List Call → ℚ
  | [] => 0
  | call :: calls =>
    let (result, b) := tokenBucket config call bucket
    (if result.allowed then call.requested else 0) + admitted (some b) calls

/-- `t_max - t_min`. -/
def span : List ℚ → ℚ
  | [] => 0
  | t :: ts => ts.foldl max t - ts.foldl min t

/-- The calls on a new bucket are admitted no more than the span of their timestamps allows, and the
tokens stay in their range. -/
structure Limited (calls : List Call) : Prop where
  bound : admitted config none calls ≤
    config.capacity + config.refillPerSecond * span (calls.map Call.now) / 1000
  range : ∀ done, done <+: calls → ∀ b, after config none done = some b →
    0 ≤ b.tokens ∧ b.tokens ≤ config.capacity

/-- When a call is made: the clock of Redis, and the timestamp. -/
abbrev Timing := ℚ × ℚ

def Call.timing (call : Call) : Timing := (call.clock, call.now)

/-- The most that a call can be credited after the one before it: everything if the key has
expired. -/
def gain (prev next : Timing) : ℚ :=
  if prev.1 + ttlMs config ≤ next.1 then config.capacity
  else min config.capacity (max 0 ((next.2 - prev.2) / 1000) * config.refillPerSecond)

def gains (prev : Timing) : List Timing → ℚ
  | [] => 0
  | next :: rest => gain config prev next + gains next rest

/-- The gains of all calls. -/
def totalGains : List Timing → ℚ
  | [] => 0
  | first :: rest => gains config first rest

end Definitions

section Bounds

variable {config : TokenBucketConfig} {call : Call} {bucket : Option Bucket} {b : Bucket}
  {calls : List Call} {prev next : Timing} {rest : List Timing}

/-- What is stored was left by a call. -/
structure LeftBy (config : TokenBucketConfig) (prev : Timing) (b : Bucket) : Prop where
  lastRefill : b.lastRefill = prev.2
  expireAt : b.expireAt = prev.1 + ttlMs config
  nonneg : 0 ≤ b.tokens
  le_capacity : b.tokens ≤ config.capacity

theorem gain_nonneg : 0 ≤ gain config prev next := by
  unfold gain
  split
  · exact config.capacity_pos.le
  · exact le_min config.capacity_pos.le
      (mul_nonneg (le_max_left _ _) config.refill_pos.le)

theorem refilled_none (config : TokenBucketConfig) (call : Call) :
    refilled config call none = config.capacity := by
  simp [refilled, alive]

theorem refilled_le_capacity (config : TokenBucketConfig) (call : Call) (bucket : Option Bucket) :
    refilled config call bucket ≤ config.capacity := min_le_left _ _

theorem refilled_some (hleft : LeftBy config prev b) : refilled config call (some b) =
    if prev.1 + ttlMs config ≤ call.clock then config.capacity
    else min config.capacity
      (b.tokens + max 0 ((call.now - prev.2) / 1000) * config.refillPerSecond) := by
  unfold refilled alive
  by_cases hexpired : prev.1 + ttlMs config ≤ call.clock
  · have hnot : ¬call.clock < b.expireAt := by
      rw [hleft.expireAt]
      exact not_lt.mpr hexpired
    simp [Option.filter, hnot, hexpired]
  · have hlive : call.clock < b.expireAt := by
      rw [hleft.expireAt]
      exact not_le.mp hexpired
    simp [Option.filter, hlive, hexpired, hleft.lastRefill]

theorem refilled_nonneg (hleft : LeftBy config prev b) (call : Call) :
    0 ≤ refilled config call (some b) := by
  rw [refilled_some hleft]
  split
  · exact config.capacity_pos.le
  · exact le_min config.capacity_pos.le (add_nonneg hleft.nonneg
      (mul_nonneg (le_max_left _ _) config.refill_pos.le))

/-- A refill credits no more than the gain. -/
theorem refilled_le (hleft : LeftBy config prev b) (call : Call) :
    refilled config call (some b) ≤ b.tokens + gain config prev call.timing := by
  rw [refilled_some hleft]
  unfold gain Call.timing
  split
  · have := hleft.nonneg
    linarith
  · rcases min_cases config.capacity
      (max 0 ((call.now - prev.2) / 1000) * config.refillPerSecond) with ⟨heq, -⟩ | ⟨heq, -⟩
    · rw [heq]
      have := hleft.nonneg
      exact (min_le_left _ _).trans (by linarith)
    · rw [heq]
      exact min_le_right _ _

/-- What a call is admitted and what it leaves is what has been there after the refill. -/
theorem admitted_add_tokens (config : TokenBucketConfig) (call : Call) (bucket : Option Bucket) :
    (if (tokenBucket config call bucket).1.allowed then call.requested else 0) +
      (tokenBucket config call bucket).2.tokens = refilled config call bucket := by
  simp only [tokenBucket, script]
  by_cases h : call.requested ≤ refilled config call bucket
  · simp [h]
  · simp [h]

theorem leftBy_tokenBucket (hcost : 0 ≤ call.requested)
    (hnonneg : 0 ≤ refilled config call bucket) :
    LeftBy config call.timing (tokenBucket config call bucket).2 := by
  refine ⟨rfl, rfl, ?_, ?_⟩ <;> simp only [tokenBucket, script]
  · by_cases h : call.requested ≤ refilled config call bucket
    · simp [h]
    · simpa [h] using hnonneg
  · have hle := refilled_le_capacity config call bucket
    by_cases h : call.requested ≤ refilled config call bucket
    · simp only [h, decide_true, if_true]
      linarith
    · simpa [h] using hle

/-- The calls are admitted no more than the tokens and the gains. -/
theorem admitted_le (hleft : LeftBy config prev b) (hcosts : ∀ call ∈ calls, 0 ≤ call.requested) :
    admitted config (some b) calls ≤ b.tokens + gains config prev (calls.map Call.timing) := by
  induction calls generalizing prev b with
  | nil =>
    simp [admitted, gains, hleft.nonneg]
  | cons call calls ih =>
    have hnext := leftBy_tokenBucket (hcosts call List.mem_cons_self) (refilled_nonneg hleft call)
    have hrest := ih hnext fun other hother => hcosts other (List.mem_cons_of_mem _ hother)
    have hsum := admitted_add_tokens config call (some b)
    have hle := refilled_le hleft call
    simp only [admitted, List.map_cons, gains]
    linarith

theorem admitted_none_le (hcosts : ∀ call ∈ calls, 0 ≤ call.requested) :
    admitted config none calls ≤
      config.capacity + totalGains config (calls.map Call.timing) := by
  cases calls with
  | nil =>
    have := config.capacity_pos
    simp only [admitted, List.map_nil, totalGains]
    linarith
  | cons call calls =>
    have hfull := refilled_none config call
    have hnext : LeftBy config call.timing (tokenBucket config call none).2 :=
      leftBy_tokenBucket (hcosts call List.mem_cons_self) (hfull ▸ config.capacity_pos.le)
    have hrest := admitted_le hnext fun other hother =>
      hcosts other (List.mem_cons_of_mem _ hother)
    have hsum := admitted_add_tokens config call none
    simp only [admitted, List.map_cons, totalGains]
    linarith

/-- The tokens stay in their range. -/
theorem leftBy_after (hcosts : ∀ call ∈ calls, 0 ≤ call.requested) (hleft : LeftBy config prev b) :
    ∃ last b', after config (some b) calls = some b' ∧ LeftBy config last b' := by
  induction calls generalizing prev b with
  | nil => exact ⟨prev, b, rfl, hleft⟩
  | cons call calls ih =>
    exact ih (fun other hother => hcosts other (List.mem_cons_of_mem _ hother))
      (leftBy_tokenBucket (hcosts call List.mem_cons_self) (refilled_nonneg hleft call))

theorem range_of_costs (hcosts : ∀ call ∈ calls, 0 ≤ call.requested)
    (h : after config none calls = some b) : 0 ≤ b.tokens ∧ b.tokens ≤ config.capacity := by
  cases calls with
  | nil => cases h
  | cons call calls =>
    have hfirst : LeftBy config call.timing (tokenBucket config call none).2 :=
      leftBy_tokenBucket (hcosts call List.mem_cons_self)
        (refilled_none config call ▸ config.capacity_pos.le)
    obtain ⟨last, b', hafter, hleft⟩ := leftBy_after
      (fun other hother => hcosts other (List.mem_cons_of_mem _ hother)) hfirst
    cases hafter.symm.trans h
    exact ⟨hleft.nonneg, hleft.le_capacity⟩

/-! ### Calls that take everything -/

/-- Calls at these times, each of which takes all that it can be credited. -/
def greedy (config : TokenBucketConfig) (prev : Timing) : List Timing → List Call
  | [] => []
  | next :: rest => ⟨next.1, next.2, gain config prev next⟩ :: greedy config next rest

def greedyFrom (config : TokenBucketConfig) : List Timing → List Call
  | [] => []
  | first :: rest => ⟨first.1, first.2, config.capacity⟩ :: greedy config first rest

theorem timing_greedy (config : TokenBucketConfig) (prev : Timing) (rest : List Timing) :
    (greedy config prev rest).map Call.timing = rest := by
  induction rest generalizing prev with
  | nil => rfl
  | cons next rest ih => exact congrArg (next :: ·) (ih next)

theorem timing_greedyFrom (config : TokenBucketConfig) (timings : List Timing) :
    (greedyFrom config timings).map Call.timing = timings := by
  cases timings with
  | nil => rfl
  | cons first rest => exact congrArg (first :: ·) (timing_greedy config first rest)

theorem costs_greedy (config : TokenBucketConfig) (prev : Timing) (rest : List Timing) :
    ∀ call ∈ greedy config prev rest, 0 ≤ call.requested := by
  induction rest generalizing prev with
  | nil => exact fun _ h => absurd h List.not_mem_nil
  | cons next rest ih =>
    intro call hcall
    rcases List.mem_cons.mp hcall with rfl | hcall
    · exact gain_nonneg
    · exact ih next call hcall

theorem costs_greedyFrom (config : TokenBucketConfig) (timings : List Timing) :
    ∀ call ∈ greedyFrom config timings, 0 ≤ call.requested := by
  cases timings with
  | nil => exact fun _ h => absurd h List.not_mem_nil
  | cons first rest =>
    intro call hcall
    rcases List.mem_cons.mp hcall with rfl | hcall
    · exact config.capacity_pos.le
    · exact costs_greedy config first rest call hcall

/-- A call that takes what is there is allowed and leaves nothing. -/
theorem tokenBucket_of_eq (h : call.requested = refilled config call bucket) :
    (tokenBucket config call bucket).1.allowed = true ∧
      (tokenBucket config call bucket).2.tokens = 0 := by
  simp [tokenBucket, script, h]

theorem refilled_of_empty (hleft : LeftBy config prev b) (hempty : b.tokens = 0)
    (next : Timing) (requested : ℚ) :
    refilled config ⟨next.1, next.2, requested⟩ (some b) = gain config prev next := by
  rw [refilled_some hleft, hempty, zero_add]
  rfl

theorem admitted_greedy (hleft : LeftBy config prev b) (hempty : b.tokens = 0)
    (rest : List Timing) :
    admitted config (some b) (greedy config prev rest) = gains config prev rest := by
  induction rest generalizing prev b with
  | nil => rfl
  | cons next rest ih =>
    let call : Call := ⟨next.1, next.2, gain config prev next⟩
    have hall : call.requested = refilled config call (some b) :=
      (refilled_of_empty hleft hempty next _).symm
    obtain ⟨hallowed, hnone⟩ := tokenBucket_of_eq hall
    have hcost : 0 ≤ call.requested := gain_nonneg
    have hnext : LeftBy config next (tokenBucket config call (some b)).2 :=
      leftBy_tokenBucket hcost (refilled_nonneg hleft call)
    have hrest := ih hnext hnone
    simp only [greedy, admitted, gains]
    rw [if_pos hallowed, hrest]

theorem admitted_greedyFrom (config : TokenBucketConfig) (first : Timing) (rest : List Timing) :
    admitted config none (greedyFrom config (first :: rest)) =
      config.capacity + totalGains config (first :: rest) := by
  let call : Call := ⟨first.1, first.2, config.capacity⟩
  have hall : call.requested = refilled config call none := (refilled_none config call).symm
  obtain ⟨hallowed, hnone⟩ := tokenBucket_of_eq hall
  have hcost : 0 ≤ call.requested := config.capacity_pos.le
  have hnext : LeftBy config first (tokenBucket config call none).2 :=
    leftBy_tokenBucket hcost (hall ▸ hcost)
  have hrest := admitted_greedy hnext hnone rest
  simp only [greedyFrom, admitted, totalGains]
  rw [if_pos hallowed, hrest]

/-! ### Callers with one clock -/

/-- Time has passed for the caller, and no less than for Redis. -/
def Forward (prev next : Timing) : Prop := prev.2 ≤ next.2 ∧ next.1 - prev.1 ≤ next.2 - prev.2

theorem gain_le_of_forward (config : TokenBucketConfig) (h : Forward prev next) :
    gain config prev next ≤ config.refillPerSecond * (next.2 - prev.2) / 1000 := by
  have hrefill := config.refill_pos
  unfold gain
  split
  · rename_i hexpired
    -- the key lives longer than an empty bucket takes to fill
    have hceil : config.capacity / config.refillPerSecond ≤
        ⌈config.capacity / config.refillPerSecond⌉ := Int.le_ceil _
    have hfull : config.capacity =
        config.refillPerSecond * (config.capacity / config.refillPerSecond) := by
      field_simp
    have hpassed : config.capacity / config.refillPerSecond ≤ (next.2 - prev.2) / 1000 := by
      have := h.2
      unfold ttlMs at hexpired
      linarith
    calc config.capacity
        = config.refillPerSecond * (config.capacity / config.refillPerSecond) := hfull
      _ ≤ config.refillPerSecond * ((next.2 - prev.2) / 1000) :=
          mul_le_mul_of_nonneg_left hpassed hrefill.le
      _ = config.refillPerSecond * (next.2 - prev.2) / 1000 := by ring
  · have hnonneg : 0 ≤ (next.2 - prev.2) / 1000 := by
      have := h.1
      linarith
    rw [max_eq_right hnonneg]
    refine (min_le_right _ _).trans (le_of_eq ?_)
    ring

theorem gains_le_of_forward (config : TokenBucketConfig) {hi : ℚ}
    (hforward : List.IsChain Forward (prev :: rest))
    (hhi : ∀ timing ∈ prev :: rest, timing.2 ≤ hi) :
    gains config prev rest ≤ config.refillPerSecond * (hi - prev.2) / 1000 := by
  have hrefill := config.refill_pos
  induction rest generalizing prev with
  | nil =>
    have hprev := hhi prev List.mem_cons_self
    have := mul_nonneg hrefill.le (sub_nonneg.mpr hprev)
    simp only [gains]
    linarith
  | cons next rest ih =>
    obtain ⟨hstep, hrest⟩ := List.isChain_cons_cons.mp hforward
    have hgain := gain_le_of_forward config hstep
    have hgains := ih hrest fun timing hmem => hhi timing (List.mem_cons_of_mem _ hmem)
    simp only [gains]
    linarith

theorem foldl_min_le (t : ℚ) (ts : List ℚ) : ts.foldl min t ≤ t := by
  induction ts generalizing t with
  | nil => exact le_refl t
  | cons t' ts ih => exact (ih (min t t')).trans (min_le_left _ _)

theorem le_foldl_max {t t' : ℚ} {ts : List ℚ} (h : t' ∈ t :: ts) : t' ≤ ts.foldl max t := by
  induction ts generalizing t t' with
  | nil => exact le_of_eq (List.mem_singleton.mp h)
  | cons u ts ih =>
    have hboth : max t u ≤ ts.foldl max (max t u) := ih List.mem_cons_self
    rcases List.mem_cons.mp h with rfl | h
    · exact (le_max_left t' u).trans hboth
    · rcases List.mem_cons.mp h with rfl | h
      · exact (le_max_right t t').trans hboth
      · exact ih (List.mem_cons_of_mem _ h)

/-- Calls whose clocks only move forward stay within the span of their timestamps. -/
theorem totalGains_le_of_forward {timings : List Timing} (hforward : timings.IsChain Forward) :
    totalGains config timings ≤
      config.refillPerSecond * span (timings.map Prod.snd) / 1000 := by
  cases timings with
  | nil => simp [totalGains, span]
  | cons first rest =>
    have hgains := gains_le_of_forward config hforward
      fun timing hmem => le_foldl_max (t := first.2) (List.mem_map_of_mem hmem)
    have hmin := foldl_min_le first.2 (rest.map Prod.snd)
    have := mul_nonneg config.refill_pos.le (sub_nonneg.mpr hmin)
    simp only [totalGains, span, List.map_cons]
    linarith

end Bounds

/-- At calls with these clocks and timestamps, the bound holds for every cost iff the refill over
the span of the timestamps covers the gains of the calls. -/
theorem limited_iff (config : TokenBucketConfig) (timings : List Timing) :
    (∀ calls : List Call, calls.map Call.timing = timings → (∀ call ∈ calls, 0 ≤ call.requested) →
      Limited config calls) ↔
    totalGains config timings ≤ config.refillPerSecond * span (timings.map Prod.snd) / 1000 := by
  have hnow : ∀ calls : List Call, calls.map Call.timing = timings →
      calls.map Call.now = timings.map Prod.snd := by
    rintro calls rfl
    rw [List.map_map]
    rfl
  constructor
  · intro h
    cases timings with
    | nil => simp [totalGains, span]
    | cons first rest =>
      have hgreedy := timing_greedyFrom config (first :: rest)
      have hbound := (h _ hgreedy (costs_greedyFrom config _)).bound
      rw [admitted_greedyFrom, hnow _ hgreedy] at hbound
      linarith
  · intro h calls htimings hcosts
    refine ⟨?_, fun done hdone b hafter => ?_⟩
    · have hle : admitted config none calls ≤ config.capacity + totalGains config timings :=
        htimings ▸ admitted_none_le hcosts
      rw [hnow calls htimings]
      linarith
    · exact range_of_costs (fun call hcall => hcosts call (hdone.mem hcall)) hafter

/-! ### Two clocks -/

/-- One request a second. -/
def onePerSecond : TokenBucketConfig := ⟨1, 1, by norm_num, by norm_num⟩

/-- Two gateways whose clocks are a second apart take turns. -/
def skewed : List Call := [⟨0, 0, 1⟩, ⟨1, 1000, 1⟩, ⟨2, 0, 1⟩, ⟨3, 1000, 1⟩]

theorem limited_fails : ¬Limited onePerSecond skewed := by
  intro h
  have hadmitted : admitted onePerSecond none skewed = 3 := by decide +kernel
  have hspan : span (skewed.map Call.now) = 1000 := by decide +kernel
  have hbound := h.bound
  rw [hadmitted, hspan] at hbound
  norm_num [onePerSecond] at hbound

end CloudMesh.RateLimiter
