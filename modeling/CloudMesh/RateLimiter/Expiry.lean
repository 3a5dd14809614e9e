import CloudMesh.RateLimiter.TokenBucket

/-!
# The expiry of the token bucket

`packages/rate-limiter/src/tokenBucket.ts` at timestamps that agree with the clock of Redis. The key
lives for longer than an empty bucket takes to fill, and a bucket that is gone starts full: a call
cannot tell whether the key has expired.

## Main definitions

- `Reservoir`, `drawFrom` — the bucket under a key that never expires
- `results`, `lastingResults` — what a sequence of calls is answered
- `admittedWithin` — the cost admitted in an interval
- `expiry_invisible` — the answers are the same, and the rate is kept in every interval
-/

namespace CloudMesh.RateLimiter

/-! ## A key that never expires -/

/-- What is stored, without a time to live. -/
structure Reservoir where
  tokens : ℚ
  lastRefill : ℚ
  deriving DecidableEq

section Definitions

variable (config : TokenBucketConfig)

/-- The tokens after the refill. -/
def replenished (now : ℚ) : Option Reservoir → ℚ
  | none => config.capacity
  | some r => min config.capacity
      (r.tokens + max 0 ((now - r.lastRefill) / 1000) * config.refillPerSecond)

/-- One call, without the `EXPIRE`. -/
def drawFrom (call : Call) (reservoir : Option Reservoir) : RateLimitResult × Reservoir :=
  let tokens := replenished config call.now reservoir
  let allowed := decide (call.requested ≤ tokens)
  let tokens := if allowed then tokens - call.requested else tokens
  let deficit := max 0 (call.requested - tokens)
  (⟨allowed, ⌊tokens⌋, call.now + deficit / config.refillPerSecond * 1000⟩, ⟨tokens, call.now⟩)

/-! ## Sequences of calls -/

def results (bucket : Option Bucket) : List Call → List RateLimitResult
  | [] => []
  | call :: calls =>
    let (result, b) := tokenBucket config call bucket
    result :: results (some b) calls

def lastingResults (reservoir : Option Reservoir) : List Call → List RateLimitResult
  | [] => []
  | call :: calls =>
    let (result, r) := drawFrom config call reservoir
    result :: lastingResults (some r) calls

/-- The timestamps agree with the clock of Redis, and never go back. -/
structure Clocked (calls : List Call) : Prop where
  agrees : ∀ call ∈ calls, call.clock = call.now
  sorted : (calls.map Call.now).Pairwise (· ≤ ·)

/-- What the calls of the interval are admitted. -/
def admittedWithin (lo hi : ℚ) (calls : List Call) (results : List RateLimitResult) : ℚ :=
  (((calls.zip results).filter fun p => p.2.allowed ∧ lo ≤ p.1.now ∧ p.1.now ≤ hi).map
    fun p => p.1.requested).sum

end Definitions

section Expiry

variable {config : TokenBucketConfig} {b : Bucket} {r : Reservoir} {call : Call}
  {bucket : Option Bucket} {calls : List Call} {results : List RateLimitResult} {last lo hi : ℚ}

theorem Clocked.of_cons (h : Clocked (call :: calls)) :
    call.clock = call.now ∧ (∀ other ∈ calls, call.now ≤ other.now) ∧ Clocked calls := by
  have hsorted := List.pairwise_cons.mp h.sorted
  refine ⟨h.agrees call List.mem_cons_self, fun other hother => ?_, ?_, hsorted.2⟩
  · exact hsorted.1 _ (List.mem_map_of_mem hother)
  · exact fun other hother => h.agrees other (List.mem_cons_of_mem _ hother)

/-! ### One call -/

/-- What a call at `last` has left. -/
structure Held (config : TokenBucketConfig) (last : ℚ) (b : Bucket) : Prop where
  lastRefill : b.lastRefill = last
  expireAt : b.expireAt = last + ttlMs config
  nonneg : 0 ≤ b.tokens

/-- The key outlives the time that it takes to fill the bucket. -/
theorem capacity_le_of_ttlMs_le {elapsed : ℚ} (h : ttlMs config ≤ elapsed) :
    config.capacity ≤ elapsed / 1000 * config.refillPerSecond := by
  have hrefill := config.refill_pos
  have hceil : config.capacity / config.refillPerSecond ≤
      ⌈config.capacity / config.refillPerSecond⌉ := Int.le_ceil _
  have hpassed : config.capacity / config.refillPerSecond ≤ elapsed / 1000 := by
    unfold ttlMs at h
    linarith
  calc config.capacity
      = config.capacity / config.refillPerSecond * config.refillPerSecond :=
        (div_mul_cancel₀ _ hrefill.ne').symm
    _ ≤ elapsed / 1000 * config.refillPerSecond := mul_le_mul_of_nonneg_right hpassed hrefill.le

/-- Whether the key has expired or not, the refill is the same. -/
theorem refilled_eq_replenished (hheld : Held config last b) (hclock : call.clock = call.now)
    (hle : last ≤ call.now) :
    refilled config call (some b) = replenished config call.now (some ⟨b.tokens, last⟩) := by
  have helapsed : 0 ≤ (call.now - last) / 1000 := div_nonneg (sub_nonneg.mpr hle) (by norm_num)
  by_cases hexpired : last + ttlMs config ≤ call.now
  · -- the key is gone, and what it held has been refilled
    have hgone : alive call.clock (some b) = none := by
      simp [alive, Option.filter, hheld.expireAt, hclock, not_lt.mpr hexpired]
    have hfull := capacity_le_of_ttlMs_le (le_sub_iff_add_le'.mpr hexpired)
    have hnonneg := hheld.nonneg
    have hnew : refilled config call (some b) = config.capacity := by
      simp only [refilled, hgone, sub_self, zero_div, max_self, zero_mul, add_zero, min_self]
    rw [hnew, replenished, max_eq_right helapsed, min_eq_left (by linarith)]
  · have hlive : alive call.clock (some b) = some b := by
      simp [alive, Option.filter, hheld.expireAt, hclock, not_le.mp hexpired]
    simp only [refilled, hlive, replenished, hheld.lastRefill]

/-- The two buckets hold the same, if they hold anything. -/
def Alike (config : TokenBucketConfig) (last : ℚ) :
    Option Bucket → Option Reservoir → Prop
  | none, none => True
  | some b, some r => Held config last b ∧ r = ⟨b.tokens, last⟩
  | _, _ => False

theorem refilled_eq_of_alike {reservoir : Option Reservoir}
    (halike : Alike config last bucket reservoir) (hclock : call.clock = call.now)
    (hle : last ≤ call.now) :
    refilled config call bucket = replenished config call.now reservoir := by
  cases bucket with
  | none =>
    cases reservoir with
    | none => exact refilled_none config call
    | some r => exact halike.elim
  | some b =>
    cases reservoir with
    | none => exact halike.elim
    | some r =>
      obtain ⟨hheld, rfl⟩ := halike
      exact refilled_eq_replenished hheld hclock hle

theorem replenished_nonneg (config : TokenBucketConfig) {reservoir : Option Reservoir}
    (hnonneg : ∀ r ∈ reservoir, 0 ≤ r.tokens) (now : ℚ) :
    0 ≤ replenished config now reservoir := by
  cases reservoir with
  | none => exact config.capacity_pos.le
  | some r =>
    exact le_min config.capacity_pos.le (add_nonneg (hnonneg r rfl)
      (mul_nonneg (le_max_left _ _) config.refill_pos.le))

theorem drawFrom_nonneg (config : TokenBucketConfig) (call : Call)
    {reservoir : Option Reservoir} (hnonneg : ∀ r ∈ reservoir, 0 ≤ r.tokens) :
    0 ≤ (drawFrom config call reservoir).2.tokens := by
  have hrefilled := replenished_nonneg config hnonneg call.now
  simp only [drawFrom]
  by_cases h : call.requested ≤ replenished config call.now reservoir
  · simp [h]
  · simpa [h] using hrefilled

theorem Alike.nonneg {reservoir : Option Reservoir} (halike : Alike config last bucket reservoir) :
    ∀ r ∈ reservoir, 0 ≤ r.tokens := by
  intro r hr
  obtain rfl := Option.mem_def.mp hr
  cases bucket with
  | none => exact halike.elim
  | some b =>
    obtain ⟨hheld, rfl⟩ := halike
    exact hheld.nonneg

/-- One call is answered alike, and leaves the same behind. -/
theorem tokenBucket_alike {reservoir : Option Reservoir}
    (halike : Alike config last bucket reservoir) (hclock : call.clock = call.now)
    (hle : last ≤ call.now) :
    (tokenBucket config call bucket).1 = (drawFrom config call reservoir).1 ∧
      Alike config call.now (some (tokenBucket config call bucket).2)
        (some (drawFrom config call reservoir).2) := by
  have hrefilled := refilled_eq_of_alike halike hclock hle
  have hsame : tokenBucket config call bucket = ((drawFrom config call reservoir).1,
      ⟨(drawFrom config call reservoir).2.tokens, call.now, call.clock + ttlMs config⟩) := by
    simp only [tokenBucket, script, drawFrom, hrefilled]
  rw [hsame]
  exact ⟨rfl, ⟨rfl, by rw [hclock], drawFrom_nonneg config call halike.nonneg⟩, rfl⟩

/-! ### All calls -/

theorem results_eq_lastingResults {reservoir : Option Reservoir} (hcalls : Clocked calls)
    (hlast : ∀ call ∈ calls, last ≤ call.now) (halike : Alike config last bucket reservoir) :
    RateLimiter.results config bucket calls = lastingResults config reservoir calls := by
  induction calls generalizing last bucket reservoir with
  | nil => rfl
  | cons call calls ih =>
    obtain ⟨hclock, hlater, hrest⟩ := hcalls.of_cons
    obtain ⟨hresult, hnext⟩ := tokenBucket_alike halike hclock (hlast call List.mem_cons_self)
    exact congrArg₂ List.cons hresult (ih hrest hlater hnext)

/-! ### The cost in an interval -/

/-- What one call is admitted if it lies in the interval. -/
def share (lo hi : ℚ) (call : Call) (result : RateLimitResult) : ℚ :=
  if result.allowed ∧ lo ≤ call.now ∧ call.now ≤ hi then call.requested else 0

theorem admittedWithin_cons (result : RateLimitResult) :
    admittedWithin lo hi (call :: calls) (result :: results) =
      share lo hi call result + admittedWithin lo hi calls results := by
  unfold admittedWithin share
  rw [List.zip_cons_cons, List.filter_cons]
  by_cases h : result.allowed ∧ lo ≤ call.now ∧ call.now ≤ hi
  · rw [if_pos (decide_eq_true h), if_pos h, List.map_cons, List.sum_cons]
  · rw [if_neg (by simpa using h), if_neg h, zero_add]

theorem admittedWithin_nil : admittedWithin lo hi [] results = 0 := rfl

/-- Calls after the interval do not count. -/
theorem admittedWithin_of_lt (hlater : ∀ call ∈ calls, hi < call.now) :
    admittedWithin lo hi calls results = 0 := by
  unfold admittedWithin
  rw [List.filter_eq_nil_iff.mpr]
  · rfl
  · intro p hp hin
    have hmem := (List.of_mem_zip hp).1
    exact absurd (of_decide_eq_true hin).2.2 (not_le.mpr (hlater p.1 hmem))

/-- What a call in the interval is admitted and what it leaves is what the refill has made. -/
theorem share_add_tokens (config : TokenBucketConfig) (reservoir : Option Reservoir)
    (hlo : lo ≤ call.now) (hhi : call.now ≤ hi) :
    share lo hi call (drawFrom config call reservoir).1 +
      (drawFrom config call reservoir).2.tokens = replenished config call.now reservoir := by
  simp only [share, drawFrom, hlo, hhi, and_true]
  by_cases h : call.requested ≤ replenished config call.now reservoir
  · simp [h]
  · simp [h]

theorem replenished_some_le (config : TokenBucketConfig) {now : ℚ} (h : r.lastRefill ≤ now) :
    replenished config now (some r) ≤
      r.tokens + config.refillPerSecond * (now - r.lastRefill) / 1000 := by
  have helapsed : 0 ≤ (now - r.lastRefill) / 1000 :=
    div_nonneg (sub_nonneg.mpr h) (by norm_num)
  refine (min_le_right _ _).trans (le_of_eq ?_)
  rw [max_eq_right helapsed]
  ring

theorem replenished_le_capacity (config : TokenBucketConfig) (now : ℚ)
    (reservoir : Option Reservoir) : replenished config now reservoir ≤ config.capacity := by
  cases reservoir with
  | none => exact le_rfl
  | some r => exact min_le_left _ _

/-- From a call in the interval on, no more than its tokens and the refill until the end. -/
theorem admittedWithin_le_of_some (config : TokenBucketConfig)
    (hsorted : (calls.map Call.now).Pairwise (· ≤ ·))
    (hlast : ∀ call ∈ calls, r.lastRefill ≤ call.now) (hnonneg : 0 ≤ r.tokens)
    (hlo : lo ≤ r.lastRefill) (hhi : r.lastRefill ≤ hi) :
    admittedWithin lo hi calls (lastingResults config (some r) calls) ≤
      r.tokens + config.refillPerSecond * (hi - r.lastRefill) / 1000 := by
  have hrefill := config.refill_pos
  induction calls generalizing r with
  | nil =>
    have := mul_nonneg hrefill.le (sub_nonneg.mpr hhi)
    rw [admittedWithin_nil]
    linarith
  | cons call calls ih =>
    obtain ⟨hlater, hrest⟩ := List.pairwise_cons.mp hsorted
    have hnow := hlast call List.mem_cons_self
    by_cases hin : call.now ≤ hi
    · have hleft : 0 ≤ (drawFrom config call (some r)).2.tokens := by
        refine drawFrom_nonneg config call fun r' hr' => ?_
        obtain rfl := Option.mem_some_iff.mp hr'
        exact hnonneg
      have hnext := ih (r := (drawFrom config call (some r)).2) hrest
        (fun other hother => hlater _ (List.mem_map_of_mem hother)) hleft (hlo.trans hnow) hin
      have hsum := share_add_tokens config (some r) (hlo.trans hnow) hin
      have hgain := replenished_some_le config hnow
      have hlastRefill : (drawFrom config call (some r)).2.lastRefill = call.now := rfl
      rw [hlastRefill] at hnext
      rw [lastingResults, admittedWithin_cons]
      linarith
    · -- this call and all later ones lie behind the interval
      have hzero : admittedWithin lo hi (call :: calls)
          (lastingResults config (some r) (call :: calls)) = 0 := by
        refine admittedWithin_of_lt fun other hother => ?_
        rcases List.mem_cons.mp hother with rfl | hother
        · exact not_le.mp hin
        · exact (not_le.mp hin).trans_le (hlater _ (List.mem_map_of_mem hother))
      have := mul_nonneg hrefill.le (sub_nonneg.mpr hhi)
      rw [hzero]
      linarith

/-- The first call of the interval finds at most a full bucket. -/
theorem admittedWithin_le (config : TokenBucketConfig) (reservoir : Option Reservoir)
    (hsorted : (calls.map Call.now).Pairwise (· ≤ ·)) (hnonneg : ∀ r ∈ reservoir, 0 ≤ r.tokens)
    (hle : lo ≤ hi) :
    admittedWithin lo hi calls (lastingResults config reservoir calls) ≤
      config.capacity + config.refillPerSecond * (hi - lo) / 1000 := by
  have hcapacity := config.capacity_pos
  have hspan := mul_nonneg config.refill_pos.le (sub_nonneg.mpr hle)
  induction calls generalizing reservoir with
  | nil =>
    rw [admittedWithin_nil]
    linarith
  | cons call calls ih =>
    obtain ⟨hlater, hrest⟩ := List.pairwise_cons.mp hsorted
    have hleft := drawFrom_nonneg config call hnonneg
    rw [lastingResults, admittedWithin_cons]
    by_cases hin : lo ≤ call.now ∧ call.now ≤ hi
    · have hnext := admittedWithin_le_of_some config
        (r := (drawFrom config call reservoir).2) hrest
        (fun other hother => hlater _ (List.mem_map_of_mem hother)) hleft hin.1 hin.2
      have hsum := share_add_tokens config reservoir hin.1 hin.2
      have hfull := replenished_le_capacity config call.now reservoir
      have hlastRefill : (drawFrom config call reservoir).2.lastRefill = call.now := rfl
      have hpart := mul_le_mul_of_nonneg_left (sub_le_sub_left hin.1 hi) config.refill_pos.le
      rw [hlastRefill] at hnext
      linarith
    · have hnone : share lo hi call (drawFrom config call reservoir).1 = 0 :=
        if_neg fun h => hin h.2
      have hnext := ih (some (drawFrom config call reservoir).2) hrest
        (fun r hr => Option.mem_some_iff.mp hr ▸ hleft)
      rw [hnone, zero_add]
      exact hnext

end Expiry

/-- The answers are those of a bucket that never expires, and no interval admits more than a full
bucket and what is refilled in it. -/
theorem expiry_invisible (config : TokenBucketConfig) (calls : List Call) (hcalls : Clocked calls) :
    results config none calls = lastingResults config none calls ∧
      ∀ t d, 0 ≤ d → admittedWithin t (t + d) calls (results config none calls) ≤
        config.capacity + config.refillPerSecond * d / 1000 := by
  have hsame : results config none calls = lastingResults config none calls := by
    cases calls with
    | nil => rfl
    | cons call calls =>
      have hlast : ∀ other ∈ call :: calls, call.now ≤ other.now := by
        intro other hother
        rcases List.mem_cons.mp hother with rfl | hother
        · exact le_rfl
        · exact hcalls.of_cons.2.1 other hother
      have halike : Alike config call.now none none := trivial
      exact results_eq_lastingResults hcalls hlast halike
  refine ⟨hsame, fun t d hd => ?_⟩
  have hle : t ≤ t + d := le_add_of_nonneg_right hd
  have hbound := admittedWithin_le config none hcalls.sorted
    (fun _ h => (Option.not_mem_none _ h).elim) hle
  rwa [add_sub_cancel_left, ← hsame] at hbound

/-- The key of the second call has expired, and the third one is refused. -/
theorem expiry_invisible_idle :
    results onePerSecond none [⟨0, 0, 1⟩, ⟨61000, 61000, 1⟩, ⟨61500, 61500, 1⟩] =
      lastingResults onePerSecond none [⟨0, 0, 1⟩, ⟨61000, 61000, 1⟩, ⟨61500, 61500, 1⟩] ∧
    ∀ t d, 0 ≤ d → admittedWithin t (t + d) [⟨0, 0, 1⟩, ⟨61000, 61000, 1⟩, ⟨61500, 61500, 1⟩]
      (results onePerSecond none [⟨0, 0, 1⟩, ⟨61000, 61000, 1⟩, ⟨61500, 61500, 1⟩]) ≤
        onePerSecond.capacity + onePerSecond.refillPerSecond * d / 1000 :=
  expiry_invisible onePerSecond [⟨0, 0, 1⟩, ⟨61000, 61000, 1⟩, ⟨61500, 61500, 1⟩]
    ⟨by simp, by simp; norm_num⟩

end CloudMesh.RateLimiter
