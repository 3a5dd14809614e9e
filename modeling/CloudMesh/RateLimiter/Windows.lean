import CloudMesh.RateLimiter.TokenBucket

/-!
# When a denied call may be repeated

The three window algorithms of `packages/rate-limiter`, beside the token bucket, in exact
arithmetic. `resetAt` names a time from which a denied call is admitted, with one exception: the
sliding window counter carries a full window past its boundary with all its weight, so at the
boundary itself it denies once more.

## Main definitions

- `fixedWindow`, `slidingWindowCounter`, `slidingWindowLog` — one call each
- `Limiter` — an algorithm with the key it works on
- `Limiter.SufficientWait` — `resetAt` is late enough
-/

namespace CloudMesh.RateLimiter

structure WindowConfig where
  limit : ℚ
  windowMs : ℚ
  one_le_limit : 1 ≤ limit
  one_le_window : 1 ≤ windowMs

theorem WindowConfig.window_pos (config : WindowConfig) : 0 < config.windowMs :=
  zero_lt_one.trans_le config.one_le_window

theorem WindowConfig.limit_pos (config : WindowConfig) : 0 < config.limit :=
  zero_lt_one.trans_le config.one_le_limit

/-! ## Counters -/

/-- A counter of `INCR`, and when it expires on the clock of Redis. -/
structure Counter where
  count : ℕ
  expireAt : Option ℚ
  deriving DecidableEq

/-- The counters of an identifier, by the start of their window. -/
abbrev Counters := ℚ → Option Counter

namespace Counters

/-- `GET`, or 0. -/
def get (s : Counters) (clock key : ℚ) : ℕ :=
  ((s key).filter fun c => c.expireAt.all (clock < ·)).elim 0 Counter.count

/-- `INCR`, and `PEXPIRE` if the counter is new. -/
def incr (s : Counters) (clock key ttlMs : ℚ) : ℕ × Counters :=
  let current := s.get clock key + 1
  let expireAt := if current = 1 then some (clock + ttlMs) else (s key).bind Counter.expireAt
  (current, Function.update s key (some ⟨current, expireAt⟩))

end Counters

section Code

variable (config : WindowConfig)

def windowStart (now : ℚ) : ℚ := ⌊now / config.windowMs⌋ * config.windowMs

/-- `fixedWindow.ts`, at a time on which the caller and Redis agree. -/
def fixedWindow (now : ℚ) (s : Counters) : RateLimitResult × Counters :=
  let start := windowStart config now
  -- also a call that is refused counts
  let (current, s) := s.incr now start config.windowMs
  (⟨current ≤ config.limit, max 0 (config.limit - current), start + config.windowMs⟩, s)

/-- `slidingWindowCounter.ts`. -/
def slidingWindowCounter (now : ℚ) (s : Counters) : RateLimitResult × Counters :=
  let currWindowStart := windowStart config now
  let prevWindowStart := currWindowStart - config.windowMs
  let elapsedFraction := (now - currWindowStart) / config.windowMs
  let curr := s.get now currWindowStart
  let prev := s.get now prevWindowStart
  let weighted := prev * (1 - elapsedFraction) + curr
  let resetAt := currWindowStart + config.windowMs
  if weighted < config.limit then
    -- kept for the next window, in which it is the previous one
    let (_, s) := s.incr now currWindowStart (config.windowMs * 2)
    (⟨true, max 0 ⌊config.limit - (weighted + 1)⌋, resetAt⟩, s)
  else (⟨false, max 0 ⌊config.limit - weighted⌋, resetAt⟩, s)

/-- The scores of the sorted set, whose members are all different, and when the key expires. -/
structure RequestLog where
  scores : List ℚ
  expireAt : ℚ
  deriving DecidableEq

/-- `slidingWindowLog.ts`. -/
def slidingWindowLog (now : ℚ) (log : Option RequestLog) : RateLimitResult × Option RequestLog :=
  let log := log.filter fun l => now < l.expireAt
  let scores := ((log.elim [] RequestLog.scores).filter
    fun score => ¬(0 ≤ score ∧ score ≤ now - config.windowMs))
  let count := scores.length
  let resetAt := now + config.windowMs
  if (count : ℚ) < config.limit then
    (⟨true, max 0 (config.limit - (count + 1 : ℕ)), resetAt⟩,
      some ⟨now :: scores, now + config.windowMs⟩)
  else
    (⟨false, max 0 (config.limit - count), resetAt⟩, log.map fun l => { l with scores := scores })

end Code

/-! ## Histories of calls -/

/-- A limiter with the state it keeps in Redis; `Cost` is what calls can differ in. -/
structure Limiter where
  State : Type
  init : State
  Cost : Type
  call : Cost → ℚ → State → RateLimitResult × State

namespace Limiter

variable (L : Limiter)

/-- The state after calls at the given times, the latest first. -/
def after : List (L.Cost × ℚ) → L.State
  | [] => L.init
  | (cost, now) :: earlier => (L.call cost now (after earlier)).2

/-- The calls lie before `t`, and in order. -/
def Before (t : ℚ) (calls : List (L.Cost × ℚ)) : Prop :=
  (t :: calls.map Prod.snd).Pairwise (· ≥ ·)

/-- The call is denied after the calls, and admitted when it is repeated at `u`. -/
def AdmittedAt (cost : L.Cost) (t u : ℚ) (calls : List (L.Cost × ℚ)) : Prop :=
  (L.call cost u (L.after ((cost, t) :: calls))).1.allowed = true

/-- Whenever a call is denied, it is admitted at its `resetAt`. -/
def SufficientWait : Prop :=
  ∀ calls t cost, L.Before t calls → (L.call cost t (L.after calls)).1.allowed = false →
    L.AdmittedAt cost t (L.call cost t (L.after calls)).1.resetAt calls

end Limiter

abbrev WindowConfig.fixedWindow (config : WindowConfig) : Limiter where
  State := Counters
  init _ := none
  Cost := Unit
  call _ := RateLimiter.fixedWindow config

abbrev WindowConfig.slidingWindowCounter (config : WindowConfig) : Limiter where
  State := Counters
  init _ := none
  Cost := Unit
  call _ := RateLimiter.slidingWindowCounter config

abbrev WindowConfig.slidingWindowLog (config : WindowConfig) : Limiter where
  State := Option RequestLog
  init := none
  Cost := Unit
  call _ := RateLimiter.slidingWindowLog config

/-- No call costs more than the bucket holds. -/
abbrev TokenBucketConfig.tokenBucket (config : TokenBucketConfig) : Limiter where
  State := Option Bucket
  init := none
  Cost := { requested : ℚ // 0 < requested ∧ requested ≤ config.capacity }
  call requested now bucket :=
    let (result, b) := RateLimiter.tokenBucket config ⟨now, now, requested⟩ bucket
    (result, some b)

/-! ## Windows -/

section Windows

variable {config : WindowConfig} {now t u : ℚ}

theorem windowStart_le (config : WindowConfig) (now : ℚ) : windowStart config now ≤ now := by
  have h := Int.floor_le (now / config.windowMs)
  rwa [le_div_iff₀ config.window_pos] at h

theorem lt_windowStart_add (config : WindowConfig) (now : ℚ) :
    now < windowStart config now + config.windowMs := by
  have h := Int.lt_floor_add_one (now / config.windowMs)
  rw [div_lt_iff₀ config.window_pos] at h
  rw [windowStart]
  linarith

/-- Time that is some windows later lies in a window that is some windows later. -/
theorem add_le_windowStart (n : ℕ) (h : windowStart config t + n * config.windowMs ≤ u) :
    windowStart config t + n * config.windowMs ≤ windowStart config u := by
  have hfloor : ⌊t / config.windowMs⌋ + n ≤ ⌊u / config.windowMs⌋ := by
    rw [Int.le_floor, le_div_iff₀ config.window_pos]
    push_cast
    rw [windowStart] at h
    linarith
  have hcast : (⌊t / config.windowMs⌋ + n : ℚ) ≤ ⌊u / config.windowMs⌋ := by exact_mod_cast hfloor
  have hmul := mul_le_mul_of_nonneg_right hcast config.window_pos.le
  unfold windowStart
  linarith

/-- The window after that of `t` starts where that one ends. -/
theorem windowStart_next (hle : windowStart config t + config.windowMs ≤ u)
    (hlt : u < windowStart config t + config.windowMs + config.windowMs) :
    windowStart config u = windowStart config t + config.windowMs := by
  have hfloor : ⌊u / config.windowMs⌋ = ⌊t / config.windowMs⌋ + 1 := by
    rw [Int.floor_eq_iff, le_div_iff₀ config.window_pos, div_lt_iff₀ config.window_pos]
    unfold windowStart at hle hlt
    push_cast
    constructor <;> linarith
  rw [windowStart, windowStart, hfloor]
  push_cast
  ring

end Windows

section Counters

variable {s : Counters} {ttlMs clock now key other : ℚ}

theorem Counters.get_of_none (h : s key = none) : s.get clock key = 0 := by
  simp [Counters.get, h]

theorem Counters.get_of_some {c : Counter} {e : ℚ} (h : s key = some c)
    (he : c.expireAt = some e) (hlive : clock < e) : s.get clock key = c.count := by
  simp [Counters.get, h, he, Option.filter, hlive]

theorem Counters.get_le_count {c : Counter} (h : s key = some c) : s.get clock key ≤ c.count := by
  rw [Counters.get, h, Option.filter]
  split
  · exact le_rfl
  · exact Nat.zero_le _

theorem Counters.incr_self : (s.incr clock key ttlMs).2 key = some ⟨s.get clock key + 1,
    if s.get clock key + 1 = 1 then some (clock + ttlMs) else (s key).bind Counter.expireAt⟩ :=
  Function.update_self _ _ _

theorem Counters.incr_of_ne (h : other ≠ key) : (s.incr clock key ttlMs).2 other = s other :=
  Function.update_of_ne h _ _

/-- What holds of the counters up to `now`: none belongs to a window that has not begun, and each is
kept until `ttlMs` after the start of its window. -/
def Kept (ttlMs now : ℚ) (s : Counters) : Prop :=
  ∀ key c, s key = some c → key ≤ now ∧ ∃ e, c.expireAt = some e ∧ key + ttlMs ≤ e

theorem Kept.mono (h : Kept ttlMs now s) (hle : now ≤ clock) : Kept ttlMs clock s :=
  fun key c hc => ⟨(h key c hc).1.trans hle, (h key c hc).2⟩

theorem Kept.eq_none (h : Kept ttlMs now s) (hlt : now < key) : s key = none := by
  cases hc : s key with
  | none => rfl
  | some c => exact absurd (h key c hc).1 (not_le.mpr hlt)

theorem Kept.incr (h : Kept ttlMs now s) (hkey : key ≤ now) :
    Kept ttlMs now (s.incr now key ttlMs).2 := by
  intro other c hc
  by_cases hother : other = key
  · subst hother
    refine ⟨hkey, ?_⟩
    obtain rfl := Option.some.inj (Counters.incr_self.symm.trans hc)
    by_cases hnew : s.get now other + 1 = 1
    · exact ⟨now + ttlMs, by simp [hnew], by linarith⟩
    · -- a counter that is alive keeps its time to live
      cases hold : s other with
      | none => exact absurd (by rw [Counters.get_of_none hold]) hnew
      | some c =>
        obtain ⟨e, he, hle⟩ := (h other c hold).2
        exact ⟨e, by simp only [if_neg hnew, Option.bind_some, he], hle⟩
  · rw [Counters.incr_of_ne hother] at hc
    exact h other c hc

end Counters

section Histories

variable {L : Limiter} {t now : ℚ} {cost : L.Cost} {calls : List (L.Cost × ℚ)}

theorem Limiter.Before.earlier (h : L.Before t ((cost, now) :: calls)) :
    now ≤ t ∧ L.Before now calls := by
  have hcons := List.pairwise_cons.mp h
  exact ⟨hcons.1 now (by simp), hcons.2⟩

/-- What every call keeps, whatever the time, holds after the calls. -/
theorem Limiter.after_induction {I : ℚ → L.State → Prop} (hinit : ∀ t, I t L.init)
    (hmono : ∀ now t s, I now s → now ≤ t → I t s)
    (hcall : ∀ cost now s, I now s → I now (L.call cost now s).2) (h : L.Before t calls) :
    I t (L.after calls) := by
  induction calls generalizing t with
  | nil => exact hinit t
  | cons call earlier ih =>
    obtain ⟨hle, hearlier⟩ := Limiter.Before.earlier h
    exact hmono _ _ _ (hcall _ _ _ (ih hearlier)) hle

end Histories

/-! ## The four algorithms -/

section Algorithms

variable (config : WindowConfig) {t u : ℚ} {calls : List (Unit × ℚ)}

theorem kept_fixedWindow (h : config.fixedWindow.Before t calls) :
    Kept config.windowMs t (config.fixedWindow.after calls) := by
  refine Limiter.after_induction (I := Kept config.windowMs) ?_ ?_ ?_ h
  · intro t key c hc
    cases hc
  · intro now t s hkept hle
    exact hkept.mono hle
  · intro cost now s hkept
    exact hkept.incr (windowStart_le config now)

theorem fixedWindow_sufficient : config.fixedWindow.SufficientWait := by
  intro calls t cost hbefore _
  have hnew : (config.fixedWindow.after ((cost, t) :: calls))
      (windowStart config t + config.windowMs) = none :=
    ((kept_fixedWindow config hbefore).incr (windowStart_le config t)).eq_none
      (lt_windowStart_add config t)
  have hwindow := config.window_pos
  have hnext : windowStart config (windowStart config t + config.windowMs) =
      windowStart config t + config.windowMs :=
    windowStart_next le_rfl (by linarith)
  show (fixedWindow config (windowStart config t + config.windowMs) _).1.allowed = true
  simp only [fixedWindow, Counters.incr, hnext, Counters.get_of_none hnew]
  simpa using config.one_le_limit

theorem slidingWindowLog_resetAt (now : ℚ) (log : Option RequestLog) :
    (slidingWindowLog config now log).1.resetAt = now + config.windowMs := by
  unfold slidingWindowLog
  dsimp only
  split <;> rfl

/-- The log expires a window after the last admitted call. -/
theorem slidingWindowLog_expireAt {now : ℚ} {log : Option RequestLog}
    (h : ∀ l ∈ log, l.expireAt ≤ now + config.windowMs) :
    ∀ l ∈ (slidingWindowLog config now log).2, l.expireAt ≤ now + config.windowMs := by
  intro l hl
  unfold slidingWindowLog at hl
  dsimp only at hl
  split at hl
  · obtain rfl := Option.some.inj hl
    exact le_rfl
  · obtain ⟨l', hl', rfl⟩ := Option.map_eq_some_iff.mp hl
    exact h l' (Option.filter_eq_some_iff.mp hl').1

theorem slidingWindowLog_admits {log : Option RequestLog} (h : ∀ l ∈ log, l.expireAt ≤ u) :
    (slidingWindowLog config u log).1.allowed = true := by
  have hgone : log.filter (fun l => u < l.expireAt) = none := by
    rw [Option.filter_eq_none_iff]
    intro l hl
    simpa using h l hl
  simp [slidingWindowLog, hgone, config.limit_pos]

theorem slidingWindowLog_sufficient : config.slidingWindowLog.SufficientWait := by
  intro calls t cost hbefore _
  have hlog : ∀ l ∈ (config.slidingWindowLog.after calls : Option RequestLog),
      l.expireAt ≤ t + config.windowMs := by
    refine Limiter.after_induction (L := config.slidingWindowLog)
      (I := fun t (log : Option RequestLog) => ∀ l ∈ log, l.expireAt ≤ t + config.windowMs)
      ?_ ?_ ?_ hbefore
    · intro t l hl
      cases hl
    · intro now t log hlog hle l hl
      exact (hlog l hl).trans (by linarith)
    · intro cost now log hlog
      exact slidingWindowLog_expireAt config hlog
  have hreset := slidingWindowLog_resetAt config t (config.slidingWindowLog.after calls)
  refine slidingWindowLog_admits config fun l hl => ?_
  -- the key is gone when the wait is over
  exact (slidingWindowLog_expireAt config hlog l hl).trans_eq hreset.symm

/-! ### The sliding window counter -/

/-- What the calls keep: the counters, none of which has been raised beyond the limit. -/
def Counted (now : ℚ) (s : Counters) : Prop :=
  Kept (config.windowMs * 2) now s ∧ ∀ key c, s key = some c → (c.count : ℚ) < config.limit + 1

theorem Counted.call {now : ℚ} {s : Counters} (h : Counted config now s) :
    Counted config now (slidingWindowCounter config now s).2 := by
  unfold slidingWindowCounter
  dsimp only
  split
  · next hweighted =>
    refine ⟨h.1.incr (windowStart_le config now), fun key c hc => ?_⟩
    by_cases hkey : key = windowStart config now
    · subst hkey
      obtain rfl := Option.some.inj (Counters.incr_self.symm.trans hc)
      -- what is left of the window before is not negative
      have hfraction : (now - windowStart config now) / config.windowMs ≤ 1 := by
        rw [div_le_one config.window_pos]
        linarith [lt_windowStart_add config now]
      have hprev : (0 : ℚ) ≤ s.get now (windowStart config now - config.windowMs) *
          (1 - (now - windowStart config now) / config.windowMs) :=
        mul_nonneg (Nat.cast_nonneg _) (sub_nonneg.mpr hfraction)
      push_cast
      linarith
    · rw [Counters.incr_of_ne hkey] at hc
      exact h.2 key c hc
  · exact h

theorem counted_after (h : config.slidingWindowCounter.Before t calls) :
    Counted config t (config.slidingWindowCounter.after calls) := by
  refine Limiter.after_induction (L := config.slidingWindowCounter) (I := Counted config)
    ?_ ?_ ?_ h
  · exact fun t => ⟨fun key c hc => (by cases hc), fun key c hc => (by cases hc)⟩
  · intro now t s hcounted hle
    exact ⟨hcounted.1.mono hle, hcounted.2⟩
  · intro cost now s hcounted
    exact hcounted.call

/-- A denied call leaves everything as it is. -/
theorem slidingWindowCounter_denied {now : ℚ} {s : Counters}
    (h : (slidingWindowCounter config now s).1.allowed = false) :
    (slidingWindowCounter config now s).2 = s := by
  unfold slidingWindowCounter at h ⊢
  dsimp only at h ⊢
  split
  · next hweighted => simp [hweighted] at h
  · rfl

theorem slidingWindowCounter_allowed (now : ℚ) (s : Counters) :
    (slidingWindowCounter config now s).1.allowed = true ↔
      s.get now (windowStart config now - config.windowMs) *
        (1 - (now - windowStart config now) / config.windowMs) +
          s.get now (windowStart config now) < config.limit := by
  unfold slidingWindowCounter
  dsimp only
  split
  · next hweighted => exact iff_of_true rfl hweighted
  · next hweighted => exact iff_of_false Bool.false_ne_true hweighted

/-- In the window after that of `t`, what `t`'s window has counted weighs less and less. -/
theorem allowed_next {s : Counters} (h : Counted config t s)
    (hle : windowStart config t + config.windowMs ≤ u)
    (hlt : u < windowStart config t + config.windowMs + config.windowMs) :
    (slidingWindowCounter config u s).1.allowed = true ↔
      s.get t (windowStart config t) *
        (1 - (u - (windowStart config t + config.windowMs)) / config.windowMs) <
          config.limit := by
  have hnext := windowStart_next hle hlt
  have hcurr : s.get u (windowStart config t + config.windowMs) = 0 :=
    Counters.get_of_none (h.1.eq_none (lt_windowStart_add config t))
  have hprev : s.get u (windowStart config t) = s.get t (windowStart config t) := by
    cases hc : s (windowStart config t) with
    | none => rw [Counters.get_of_none hc, Counters.get_of_none hc]
    | some c =>
      obtain ⟨-, e, he, hkept⟩ := h.1 _ c hc
      have hstart := lt_windowStart_add config t
      have hwindow := config.window_pos
      rw [Counters.get_of_some hc he (by linarith), Counters.get_of_some hc he (by linarith)]
  rw [slidingWindowCounter_allowed, hnext, add_sub_cancel_right, hcurr, hprev, Nat.cast_zero,
    add_zero]

/-- Two windows later nothing is left of it. -/
theorem allowed_later {s : Counters} (h : Counted config t s)
    (hle : windowStart config t + config.windowMs + config.windowMs ≤ u) :
    (slidingWindowCounter config u s).1.allowed = true := by
  have hstart : windowStart config t + (2 : ℕ) * config.windowMs ≤ windowStart config u :=
    add_le_windowStart 2 (by push_cast; linarith)
  have hafter := lt_windowStart_add config t
  have hwindow := config.window_pos
  push_cast at hstart
  rw [slidingWindowCounter_allowed, Counters.get_of_none (h.1.eq_none (by linarith)),
    Counters.get_of_none (h.1.eq_none (by linarith)), Nat.cast_zero, zero_mul, add_zero]
  exact config.limit_pos

end Algorithms

/-- A call denied by the sliding window counter is admitted at its `resetAt` iff the window it was
denied in is not full. If the limit is whole, it is admitted at every later time. -/
def WindowConfig.CarriedOver (config : WindowConfig) : Prop :=
  ∀ calls t, config.slidingWindowCounter.Before t calls →
    (config.slidingWindowCounter.call () t (config.slidingWindowCounter.after calls)).1.allowed =
        false →
      (config.slidingWindowCounter.AdmittedAt () t (windowStart config t + config.windowMs) calls ↔
        Counters.get (config.slidingWindowCounter.after calls) t (windowStart config t) <
          config.limit) ∧
      ∀ n : ℕ, config.limit = n → ∀ u > windowStart config t + config.windowMs,
        config.slidingWindowCounter.AdmittedAt () t u calls

theorem slidingWindowCounter_carriedOver (config : WindowConfig) : config.CarriedOver := by
  intro calls t hbefore hdenied
  have hcounted := counted_after config hbefore
  have hsame := slidingWindowCounter_denied config hdenied
  have hwindow := config.window_pos
  have hadmitted : ∀ u, config.slidingWindowCounter.AdmittedAt () t u calls ↔
      (slidingWindowCounter config u (config.slidingWindowCounter.after calls)).1.allowed =
        true := by
    intro u
    show (slidingWindowCounter config u (slidingWindowCounter config t _).2).1.allowed = true ↔ _
    rw [hsame]
  refine ⟨?_, fun n hn u hu => ?_⟩
  · rw [hadmitted, allowed_next config hcounted le_rfl (by linarith), sub_self, zero_div, sub_zero,
      mul_one]
  · rw [hadmitted]
    by_cases hlt : u < windowStart config t + config.windowMs + config.windowMs
    · rw [allowed_next config hcounted hu.le hlt]
      have hcount : Counters.get (config.slidingWindowCounter.after calls) t
          (windowStart config t) ≤ n := by
        cases hc : config.slidingWindowCounter.after calls (windowStart config t) with
        | none => simp [Counters.get_of_none hc]
        | some c =>
          have hless := hcounted.2 _ c hc
          rw [hn] at hless
          have hle : c.count < n + 1 := by exact_mod_cast hless
          exact (Counters.get_le_count hc).trans (Nat.lt_succ_iff.mp hle)
      have hcast : (Counters.get (config.slidingWindowCounter.after calls) t
          (windowStart config t) : ℚ) ≤ config.limit := by
        rw [hn]
        exact_mod_cast hcount
      have hpast : 0 < (u - (windowStart config t + config.windowMs)) / config.windowMs :=
        div_pos (by linarith) hwindow
      have hrest : 0 ≤ 1 - (u - (windowStart config t + config.windowMs)) / config.windowMs := by
        rw [sub_nonneg, div_le_one hwindow]
        linarith
      calc _ ≤ config.limit *
            (1 - (u - (windowStart config t + config.windowMs)) / config.windowMs) :=
          mul_le_mul_of_nonneg_right hcast hrest
        _ < config.limit := mul_lt_of_lt_one_right config.limit_pos (by linarith)
    · exact allowed_later config hcounted (not_lt.mp hlt)

/-! ### The token bucket -/

/-- What a denied call leaves is enough at its `resetAt`, whether the key has expired or not. -/
theorem refilled_resetAt {config : TokenBucketConfig} {requested t : ℚ} {bucket : Option Bucket}
    (hcapacity : requested ≤ config.capacity)
    (hdenied : (tokenBucket config ⟨t, t, requested⟩ bucket).1.allowed = false) :
    requested ≤ refilled config ⟨(tokenBucket config ⟨t, t, requested⟩ bucket).1.resetAt,
      (tokenBucket config ⟨t, t, requested⟩ bucket).1.resetAt, requested⟩
      (some (tokenBucket config ⟨t, t, requested⟩ bucket).2) := by
  obtain ⟨tokens, htokens⟩ : ∃ tokens, refilled config ⟨t, t, requested⟩ bucket = tokens := ⟨_, rfl⟩
  have hshort : tokens < requested := by
    simpa [tokenBucket, script, htokens] using hdenied
  have hreset : (tokenBucket config ⟨t, t, requested⟩ bucket).1.resetAt =
      t + (requested - tokens) / config.refillPerSecond * 1000 := by
    simp [tokenBucket, script, htokens, not_le.mpr hshort, max_eq_right (sub_nonneg.mpr hshort.le)]
  have hleft : (tokenBucket config ⟨t, t, requested⟩ bucket).2 = ⟨tokens, t, t + ttlMs config⟩ := by
    simp [tokenBucket, script, htokens, not_le.mpr hshort]
  rw [hreset, hleft]
  have hrefill := config.refill_pos
  have hwait : 0 ≤ (requested - tokens) / config.refillPerSecond :=
    div_nonneg (sub_nonneg.mpr hshort.le) hrefill.le
  unfold refilled alive
  refine le_min hcapacity ?_
  by_cases hlive : t + (requested - tokens) / config.refillPerSecond * 1000 < t + ttlMs config
  · have helapsed : (t + (requested - tokens) / config.refillPerSecond * 1000 - t) / 1000 =
        (requested - tokens) / config.refillPerSecond := by ring
    simp only [Option.filter, hlive, decide_true, if_true, helapsed, max_eq_right hwait,
      div_mul_cancel₀ _ hrefill.ne']
    linarith
  · simp only [Option.filter, hlive, decide_false, Bool.false_eq_true, if_false, sub_self,
      zero_div, max_self, zero_mul, add_zero]
    exact hcapacity

theorem tokenBucket_sufficient (config : TokenBucketConfig) :
    config.tokenBucket.SufficientWait := by
  intro calls t cost _ hdenied
  have hrefilled := refilled_resetAt cost.2.2 hdenied
  simpa [Limiter.AdmittedAt, Limiter.after, tokenBucket, script] using hrefilled

/-- A denied call is admitted at its `resetAt`, except that the sliding window counter denies it
once more there if the window it was denied in is full. -/
theorem resetAt_sufficient (windows : WindowConfig) (bucket : TokenBucketConfig) :
    windows.fixedWindow.SufficientWait ∧ windows.slidingWindowLog.SufficientWait ∧
      bucket.tokenBucket.SufficientWait ∧ windows.CarriedOver :=
  ⟨fixedWindow_sufficient windows, slidingWindowLog_sufficient windows,
    tokenBucket_sufficient bucket, slidingWindowCounter_carriedOver windows⟩

/-- One request a second. -/
def oneAWindow : WindowConfig := ⟨1, 1000, le_rfl, by norm_num⟩

/-- The call at 0 is admitted, the one at 1 is denied and is denied again at 1000. -/
theorem resetAt_sufficient_fails : ¬oneAWindow.slidingWindowCounter.SufficientWait := by
  intro h
  have hagain := h [((), 0)] 1 () (by simp [Limiter.Before]) (by decide +kernel)
  simp only [Limiter.AdmittedAt] at hagain
  revert hagain
  decide +kernel

end CloudMesh.RateLimiter
