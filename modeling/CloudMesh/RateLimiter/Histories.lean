import CloudMesh.RateLimiter.Windows
import CloudMesh.TimeWindow

/-!
# The sliding windows against the history of calls

What `slidingWindowLog` and `slidingWindowCounter` keep, compared with the times of all calls that
they have admitted. The log is exact. The counters are exact too, but the estimate that they give
is compared with the limit before the call is counted: it can pass the limit by less than one call.

## Main definitions

- `Limiter.admittedTimes` — the times of the admitted calls
- `Exact` — the log answers from the history
- `Estimated` — the counters are those of the history, and how far the estimate goes
-/

namespace CloudMesh.RateLimiter

open TimeWindow

namespace Limiter

variable (L : Limiter)

/-- The times of the admitted calls, the latest first. -/
def admittedTimes : List (L.Cost × ℚ) → List ℚ
  | [] => []
  | (cost, now) :: earlier =>
    if (L.call cost now (L.after earlier)).1.allowed then now :: admittedTimes earlier
    else admittedTimes earlier

/-- The calls lie before `t`, and in order, on a clock that starts at 0. -/
structure OnClock (t : ℚ) (calls : List (L.Cost × ℚ)) : Prop where
  before : L.Before t calls
  nonneg : ∀ call ∈ calls, 0 ≤ call.2

end Limiter

section Definitions

variable (config : WindowConfig)

/-- The times in `(t - windowMs, t]`. -/
def inWindow (t : ℚ) (times : List ℚ) : List ℚ :=
  times.filter fun x => t - config.windowMs < x ∧ x ≤ t

/-- The scores that Redis has under the key. -/
def present (now : ℚ) (log : Option RequestLog) : List ℚ :=
  (log.filter fun l => now < l.expireAt).elim [] RequestLog.scores

/-- What `ZREMRANGEBYSCORE` leaves. -/
def trimmed (now : ℚ) (log : Option RequestLog) : List ℚ :=
  (present now log).filter fun score => ¬(0 ≤ score ∧ score ≤ now - config.windowMs)

/-- The log against the history, at a call at `now`. -/
structure Exact (calls : List (Unit × ℚ)) (now : ℚ) : Prop where
  /-- Nothing that counts is lost, and nothing else is left after the trim. -/
  stored : (trimmed config now (config.slidingWindowLog.after calls)).Perm
    (inWindow config now (config.slidingWindowLog.admittedTimes calls))
  admits : (config.slidingWindowLog.call () now
    (config.slidingWindowLog.after calls)).1.allowed = true ↔
      ((inWindow config now (config.slidingWindowLog.admittedTimes calls)).length : ℚ) <
        config.limit
  /-- No window has more than the limit, or the next whole number. -/
  bounded : ∀ t, (inWindow config t (config.slidingWindowLog.admittedTimes calls)).length ≤
    ⌈config.limit⌉₊
  /-- After the call and `k` more at the same time, one more is admitted iff `k < remaining`. -/
  remaining : ∀ k : ℕ, (config.slidingWindowLog.call () now (config.slidingWindowLog.after
      (List.replicate k ((), now) ++ ((), now) :: calls))).1.allowed = true ↔
    k < (config.slidingWindowLog.call () now
      (config.slidingWindowLog.after calls)).1.remaining

/-- The times in the aligned window that starts at `start`. -/
def inAligned (start : ℚ) (times : List ℚ) : List ℚ :=
  times.filter fun x => windowStart config x = start

/-- What `slidingWindowCounter` compares with the limit. -/
def estimate (now : ℚ) (s : Counters) : ℚ :=
  s.get now (windowStart config now - config.windowMs) *
    (1 - (now - windowStart config now) / config.windowMs) + s.get now (windowStart config now)

/-- The counters against the history, at a call at `now`. -/
structure Estimated (calls : List (Unit × ℚ)) (now : ℚ) : Prop where
  current : Counters.get (config.slidingWindowCounter.after calls) now (windowStart config now) =
    (inAligned config (windowStart config now)
      (config.slidingWindowCounter.admittedTimes calls)).length
  previous : Counters.get (config.slidingWindowCounter.after calls) now
      (windowStart config now - config.windowMs) =
    (inAligned config (windowStart config now - config.windowMs)
      (config.slidingWindowCounter.admittedTimes calls)).length
  bounded : ∀ start, ((inAligned config start
    (config.slidingWindowCounter.admittedTimes calls)).length : ℚ) ≤ config.limit
  /-- The call that is admitted can take the estimate past the limit, by less than itself. -/
  estimate_lt : (config.slidingWindowCounter.call () now
      (config.slidingWindowCounter.after calls)).1.allowed = true →
    estimate config now (config.slidingWindowCounter.call () now
      (config.slidingWindowCounter.after calls)).2 < config.limit + 1

/-- No admitted call takes the estimate past the limit. -/
def EstimateAtMost : Prop :=
  ∀ calls now, config.slidingWindowCounter.Before now calls →
    (config.slidingWindowCounter.call () now
        (config.slidingWindowCounter.after calls)).1.allowed = true →
      estimate config now (config.slidingWindowCounter.call () now
        (config.slidingWindowCounter.after calls)).2 ≤ config.limit

end Definitions

/-! ## The calls and the admitted ones -/

section Calls

variable {L : Limiter} {t u now x : ℚ} {cost : L.Cost} {calls : List (L.Cost × ℚ)}

theorem Limiter.mem_admittedTimes (h : x ∈ L.admittedTimes calls) :
    ∃ call ∈ calls, call.2 = x := by
  induction calls with
  | nil => cases h
  | cons call earlier ih =>
    rw [Limiter.admittedTimes] at h
    split at h
    · rcases List.mem_cons.mp h with rfl | hx
      · exact ⟨call, List.mem_cons_self, rfl⟩
      · obtain ⟨other, hother, rfl⟩ := ih hx
        exact ⟨other, List.mem_cons_of_mem _ hother, rfl⟩
    · obtain ⟨other, hother, rfl⟩ := ih h
      exact ⟨other, List.mem_cons_of_mem _ hother, rfl⟩

theorem Limiter.OnClock.earlier (h : L.OnClock t ((cost, now) :: calls)) :
    0 ≤ now ∧ now ≤ t ∧ L.OnClock now calls := by
  obtain ⟨hle, hbefore⟩ := h.before.earlier
  exact ⟨h.nonneg _ List.mem_cons_self, hle, hbefore,
    fun call hcall => h.nonneg call (List.mem_cons_of_mem _ hcall)⟩

theorem Limiter.OnClock.cons (h : L.OnClock t calls) (hnonneg : 0 ≤ t) :
    L.OnClock t ((cost, t) :: calls) := by
  refine ⟨List.pairwise_cons.mpr ⟨fun other hother => ?_, h.before⟩, fun call hcall => ?_⟩
  · rcases List.mem_cons.mp hother with rfl | hother
    · exact le_rfl
    · exact (List.pairwise_cons.mp h.before).1 other hother
  · rcases List.mem_cons.mp hcall with rfl | hcall
    · exact hnonneg
    · exact h.nonneg call hcall

theorem Limiter.OnClock.le_of_mem (h : L.OnClock t calls) (hx : x ∈ L.admittedTimes calls) :
    x ≤ t := by
  obtain ⟨call, hcall, rfl⟩ := Limiter.mem_admittedTimes hx
  exact (List.pairwise_cons.mp h.before).1 _ (List.mem_map_of_mem hcall)

end Calls

/-! ## The log -/

section Log

variable {config : WindowConfig} {t u now last : ℚ} {times : List ℚ} {log : Option RequestLog}
  {calls : List (Unit × ℚ)}

/-- Up to `now` no time is later, so that only the lower bound counts. -/
theorem inWindow_eq_past (h : ∀ x ∈ times, x ≤ t) :
    inWindow config t times = past id (t - config.windowMs) times := by
  refine List.filter_congr fun x hx => ?_
  simp [h x hx]

theorem inWindow_cons (x : ℚ) : inWindow config t (x :: times) =
    if t - config.windowMs < x ∧ x ≤ t then x :: inWindow config t times
    else inWindow config t times := by
  simp only [inWindow, List.filter_cons, decide_eq_true_eq]

/-- What the log keeps of the history up to `now`. -/
structure Logged (config : WindowConfig) (now : ℚ) (times : List ℚ) (log : Option RequestLog) :
    Prop where
  keeps : Keeps id (now - config.windowMs) times (log.elim [] RequestLog.scores)
  lives : ∀ l ∈ log, ∀ x ∈ times, x + config.windowMs ≤ l.expireAt
  nonneg : ∀ l ∈ log, ∀ x ∈ l.scores, 0 ≤ x

theorem logged_nil (config : WindowConfig) (now : ℚ) : Logged config now [] none where
  keeps := Keeps.refl []
  lives _ hl := (Option.not_mem_none _ hl).elim
  nonneg _ hl := (Option.not_mem_none _ hl).elim

theorem Logged.mono (h : Logged config last times log) (hle : last ≤ now) :
    Logged config now times log :=
  ⟨h.keeps.mono (sub_le_sub_right hle _), h.lives, h.nonneg⟩

/-- The key expires a window after the last call that was admitted, when none counts any more. -/
theorem Logged.expire (h : Logged config now times log) :
    Logged config now times (log.filter fun l => now < l.expireAt) := by
  cases log with
  | none => exact h
  | some l =>
    by_cases hlive : now < l.expireAt
    · rw [Option.filter_some, if_pos (decide_eq_true hlive)]
      exact h
    · rw [Option.filter_some, if_neg (by simpa using hlive)]
      -- the expiry was set a window after the last call that was admitted
      refine ⟨Keeps.forget fun x hx => ?_, fun _ hl => (Option.not_mem_none _ hl).elim,
        fun _ hl => (Option.not_mem_none _ hl).elim⟩
      have hlives := h.lives l rfl x hx
      show x ≤ now - config.windowMs
      linarith

theorem Logged.keeps_trimmed (h : Logged config now times log) :
    Keeps id (now - config.windowMs) times (trimmed config now log) := by
  refine h.expire.keeps.filter _ fun x _ hlate => ?_
  have hkept : ¬(x ≤ now - config.windowMs) := not_le.mpr hlate
  simp [hkept]

theorem Logged.nonneg_present (h : Logged config now times log) :
    ∀ x ∈ present now log, 0 ≤ x := by
  intro x hx
  cases hlog : log.filter fun l => now < l.expireAt with
  | none => simp [present, hlog] at hx
  | some l => exact h.expire.nonneg l hlog x (by simpa [present, hlog] using hx)

/-- The trim leaves what counts, and nothing else. -/
theorem Logged.trimmed_perm (h : Logged config now times log) :
    (trimmed config now log).Perm (past id (now - config.windowMs) times) := by
  refine h.keeps_trimmed.perm_past fun x hx => ?_
  obtain ⟨hpresent, hkept⟩ := List.mem_filter.mp hx
  have hnonneg := h.nonneg_present x hpresent
  simpa [hnonneg] using hkept

/-! ### One call -/

theorem slidingWindowLog_allowed (config : WindowConfig) (now : ℚ) (log : Option RequestLog) :
    (slidingWindowLog config now log).1.allowed = true ↔
      ((trimmed config now log).length : ℚ) < config.limit := by
  unfold slidingWindowLog
  dsimp only
  split
  · next hless => exact iff_of_true rfl hless
  · next hless => exact iff_of_false Bool.false_ne_true hless

theorem slidingWindowLog_of_lt (h : ((trimmed config now log).length : ℚ) < config.limit) :
    slidingWindowLog config now log =
      (⟨true, max 0 (config.limit - ((trimmed config now log).length + 1 : ℕ)),
        now + config.windowMs⟩, some ⟨now :: trimmed config now log, now + config.windowMs⟩) :=
  if_pos h

theorem slidingWindowLog_of_not_lt
    (h : ¬((trimmed config now log).length : ℚ) < config.limit) :
    slidingWindowLog config now log =
      (⟨false, max 0 (config.limit - (trimmed config now log).length), now + config.windowMs⟩,
        (log.filter fun l => now < l.expireAt).map
          fun l => { l with scores := trimmed config now log }) :=
  if_neg h

theorem Logged.admit (h : Logged config now times log) (hnow : 0 ≤ now)
    (hpast : ∀ x ∈ times, x ≤ now) : Logged config now (now :: times)
      (some ⟨now :: trimmed config now log, now + config.windowMs⟩) where
  keeps := h.keeps_trimmed.cons now
  lives := by
    intro l hl x hx
    obtain rfl := Option.mem_some_iff.mp hl
    rcases List.mem_cons.mp hx with rfl | hx
    · exact le_rfl
    · exact add_le_add_left (hpast x hx) _
  nonneg := by
    intro l hl x hx
    obtain rfl := Option.mem_some_iff.mp hl
    rcases List.mem_cons.mp hx with rfl | hx
    · exact hnow
    · exact h.nonneg_present x (List.mem_filter.mp hx).1

theorem Logged.deny (h : Logged config now times log) :
    Logged config now times ((log.filter fun l => now < l.expireAt).map
      fun l => { l with scores := trimmed config now log }) := by
  have hexpire := h.expire
  have hkeeps := h.keeps_trimmed
  have hnonneg := h.nonneg_present
  cases hlog : log.filter fun l => now < l.expireAt with
  | none =>
    rw [hlog] at hexpire
    exact hexpire
  | some l =>
    refine ⟨hkeeps, fun l' hl' x hx => ?_, fun l' hl' x hx => ?_⟩
    · obtain rfl := Option.mem_some_iff.mp hl'
      exact hexpire.lives l hlog x hx
    · obtain rfl := Option.mem_some_iff.mp hl'
      exact hnonneg x (List.mem_filter.mp hx).1

/-! ### All calls -/

/-- The log after the calls keeps what the history says. -/
theorem logged_after (h : config.slidingWindowLog.OnClock t calls) :
    Logged config t (config.slidingWindowLog.admittedTimes calls)
      (config.slidingWindowLog.after calls) := by
  induction calls generalizing t with
  | nil => exact logged_nil config t
  | cons call earlier ih =>
    obtain ⟨cost, now⟩ := call
    obtain ⟨hnow, hle, hearlier⟩ := h.earlier
    have hlogged := ih hearlier
    -- the latest call comes first, and finds what the earlier ones have left
    refine Logged.mono ?_ hle
    show Logged config now (if (slidingWindowLog config now _).1.allowed = true then _ else _)
      (slidingWindowLog config now _).2
    by_cases hless : ((trimmed config now (config.slidingWindowLog.after earlier)).length : ℚ) <
        config.limit
    · rw [slidingWindowLog_of_lt hless]
      exact hlogged.admit hnow fun x hx => hearlier.le_of_mem hx
    · rw [slidingWindowLog_of_not_lt hless]
      exact hlogged.deny

/-- What counts at a call at `t` is what the trim leaves. -/
theorem trimmed_perm_inWindow (h : config.slidingWindowLog.OnClock t calls) :
    (trimmed config t (config.slidingWindowLog.after calls)).Perm
      (inWindow config t (config.slidingWindowLog.admittedTimes calls)) := by
  rw [inWindow_eq_past fun x hx => h.le_of_mem hx]
  exact (logged_after h).trimmed_perm

/-- The number of admitted calls that count at `t`. -/
def countAt (config : WindowConfig) (t : ℚ) (calls : List (Unit × ℚ)) : ℕ :=
  (inWindow config t (config.slidingWindowLog.admittedTimes calls)).length

theorem length_trimmed (h : config.slidingWindowLog.OnClock t calls) :
    (trimmed config t (config.slidingWindowLog.after calls)).length = countAt config t calls :=
  (trimmed_perm_inWindow h).length_eq

theorem slidingWindowLog_admits_iff (h : config.slidingWindowLog.OnClock t calls) :
    (config.slidingWindowLog.call () t (config.slidingWindowLog.after calls)).1.allowed = true ↔
      (countAt config t calls : ℚ) < config.limit := by
  rw [← length_trimmed h]
  exact slidingWindowLog_allowed config t _

/-- A call that is admitted counts at its own time. -/
theorem countAt_call (h : config.slidingWindowLog.OnClock t calls) :
    countAt config t (((), t) :: calls) =
      if (countAt config t calls : ℚ) < config.limit then countAt config t calls + 1
      else countAt config t calls := by
  have hwindow := config.window_pos
  rw [countAt, Limiter.admittedTimes]
  by_cases hless : (countAt config t calls : ℚ) < config.limit
  · rw [if_pos ((slidingWindowLog_admits_iff h).mpr hless), if_pos hless, inWindow_cons,
      if_pos ⟨by linarith, le_rfl⟩]
    rfl
  · rw [if_neg fun hallowed => hless ((slidingWindowLog_admits_iff h).mp hallowed), if_neg hless]
    rfl

/-- A window that ends after all times has no more of them than the one that ends with the
last. -/
theorem length_inWindow_le (config : WindowConfig) (h : ∀ x ∈ times, x ≤ now) (hle : now ≤ t) :
    (inWindow config t times).length ≤ (inWindow config now times).length := by
  rw [inWindow_eq_past h, inWindow_eq_past fun x hx => (h x hx).trans hle]
  exact (past_sublist (sub_le_sub_right hle _)).length_le

/-- No window has more than the limit. -/
theorem length_inWindow_le_ceil (h : config.slidingWindowLog.OnClock u calls) (t : ℚ) :
    (inWindow config t (config.slidingWindowLog.admittedTimes calls)).length ≤
      ⌈config.limit⌉₊ := by
  induction calls generalizing u with
  | nil => exact Nat.zero_le _
  | cons call earlier ih =>
    obtain ⟨cost, now⟩ := call
    obtain ⟨hnow, hle, hearlier⟩ := h.earlier
    have hrest := ih hearlier
    rw [Limiter.admittedTimes]
    split
    · next hallowed =>
      have hless := (slidingWindowLog_admits_iff hearlier).mp hallowed
      rw [inWindow_cons]
      split
      · next hin =>
        -- the window ends after this call, and what it has of the others counts at this call
        have hsub := length_inWindow_le config (fun x hx => hearlier.le_of_mem hx) hin.2
        exact hsub.trans_lt (Nat.lt_ceil.mpr hless)
      · exact hrest
    · exact hrest

/-! ### What remains -/

theorem slidingWindowLog_remaining (h : config.slidingWindowLog.OnClock t calls) :
    (config.slidingWindowLog.call () t (config.slidingWindowLog.after calls)).1.remaining =
      max 0 (config.limit - countAt config t (((), t) :: calls)) := by
  have hlength := length_trimmed h
  rw [countAt_call h]
  show (slidingWindowLog config t _).1.remaining = _
  by_cases hless : (countAt config t calls : ℚ) < config.limit
  · rw [if_pos hless, slidingWindowLog_of_lt (hlength ▸ hless), hlength]
  · rw [if_neg hless, slidingWindowLog_of_not_lt (hlength ▸ hless), hlength]

theorem onClock_replicate (h : config.slidingWindowLog.OnClock t calls) (hnonneg : 0 ≤ t)
    (k : ℕ) : config.slidingWindowLog.OnClock t (List.replicate k ((), t) ++ calls) := by
  induction k with
  | zero => exact h
  | succ k ih => exact ih.cons hnonneg

/-- Each of the calls at `t` counts until the limit is reached. -/
theorem countAt_replicate (h : config.slidingWindowLog.OnClock t calls) (hnonneg : 0 ≤ t)
    (k : ℕ) :
    (countAt config t (List.replicate k ((), t) ++ calls) : ℚ) = countAt config t calls + k ∨
      config.limit ≤ countAt config t (List.replicate k ((), t) ++ calls) ∧
        config.limit ≤ countAt config t calls + k := by
  induction k with
  | zero => exact Or.inl (by simp)
  | succ k ih =>
    have hstep := countAt_call (onClock_replicate h hnonneg k)
    rw [List.replicate_succ, List.cons_append, hstep]
    rcases ih with heq | ⟨hfull, hle⟩
    · -- none was refused so far: this one counts, or it is the first that does not
      by_cases hless : (countAt config t (List.replicate k ((), t) ++ calls) : ℚ) < config.limit
      · rw [if_pos hless]
        push_cast
        exact Or.inl (by rw [heq, add_assoc])
      · rw [if_neg hless]
        push_cast
        exact Or.inr ⟨not_lt.mp hless, by linarith [not_lt.mp hless]⟩
    · rw [if_neg (not_lt.mpr hfull)]
      push_cast
      exact Or.inr ⟨hfull, by linarith⟩

theorem countAt_replicate_lt_iff (h : config.slidingWindowLog.OnClock t calls)
    (hnonneg : 0 ≤ t) (k : ℕ) :
    (countAt config t (List.replicate k ((), t) ++ calls) : ℚ) < config.limit ↔
      (k : ℚ) < max 0 (config.limit - countAt config t calls) := by
  have hk : ¬(k : ℚ) < 0 := not_lt.mpr (Nat.cast_nonneg k)
  rw [lt_max_iff, or_iff_right hk, lt_sub_iff_add_lt']
  rcases countAt_replicate h hnonneg k with heq | ⟨hfull, hle⟩
  · rw [heq]
  · exact iff_of_false (not_lt.mpr hfull) (not_lt.mpr hle)

end Log

/-- The sliding window log answers from the history of the calls. -/
theorem slidingWindowLog_exact (config : WindowConfig) (calls : List (Unit × ℚ)) (now : ℚ)
    (hcalls : config.slidingWindowLog.OnClock now calls) (hnow : 0 ≤ now) :
    Exact config calls now where
  stored := trimmed_perm_inWindow hcalls
  admits := slidingWindowLog_admits_iff hcalls
  bounded := length_inWindow_le_ceil hcalls
  remaining := by
    intro k
    have hcall : config.slidingWindowLog.OnClock now (((), now) :: calls) := hcalls.cons hnow
    rw [slidingWindowLog_admits_iff (onClock_replicate hcall hnow k),
      countAt_replicate_lt_iff hcall hnow, slidingWindowLog_remaining hcalls]

/-- Two calls, the first of which does not count any more. -/
theorem slidingWindowLog_exact_oneAWindow :
    Exact oneAWindow [((), 1000), ((), 0)] 1500 :=
  slidingWindowLog_exact oneAWindow [((), 1000), ((), 0)] 1500
    ⟨by simp [Limiter.Before]; norm_num, by simp⟩ (by norm_num)

/-! ## The counters -/

section Counters

variable {config : WindowConfig} {t now later start : ℚ} {times : List ℚ} {s : Counters}
  {calls : List (Unit × ℚ)}

/-- As long as a counter is kept, it does not matter when it is read. -/
theorem Kept.get_eq {ttlMs : ℚ} (h : Kept ttlMs now s) (hle : now ≤ later)
    (hkept : later < start + ttlMs) : s.get later start = s.get now start := by
  cases hc : s start with
  | none => rw [Counters.get_of_none hc, Counters.get_of_none hc]
  | some c =>
    obtain ⟨-, e, he, hlive⟩ := h start c hc
    have hlater := hkept.trans_le hlive
    rw [Counters.get_of_some hc he hlater, Counters.get_of_some hc he (hle.trans_lt hlater)]

/-- The counter that is raised counts the call. -/
theorem Kept.get_incr {ttlMs : ℚ} (h : Kept ttlMs now s) (hle : start ≤ now)
    (hkept : now < start + ttlMs) :
    (s.incr now start ttlMs).2.get now start = s.get now start + 1 := by
  have hself : (s.incr now start ttlMs).2 start = some _ := Counters.incr_self
  obtain ⟨-, e, he, hlive⟩ := (h.incr hle) start _ hself
  rw [Counters.get_of_some hself he (hkept.trans_le hlive)]

theorem Counters.get_incr_of_ne {clock key other ttlMs : ℚ} (h : other ≠ key) :
    (s.incr clock key ttlMs).2.get clock other = s.get clock other := by
  rw [Counters.get, Counters.get, Counters.incr_of_ne h]

/-- What is left of the window before is not negative. -/
theorem weight_nonneg (config : WindowConfig) (now : ℚ) :
    0 ≤ 1 - (now - windowStart config now) / config.windowMs := by
  rw [sub_nonneg, div_le_one config.window_pos]
  linarith [lt_windowStart_add config now]

theorem inAligned_cons (x : ℚ) : inAligned config start (x :: times) =
    if windowStart config x = start then x :: inAligned config start times
    else inAligned config start times := by
  simp only [inAligned, List.filter_cons, decide_eq_true_eq]

/-- The counters that are still kept are those of the history. -/
structure Tallied (config : WindowConfig) (now : ℚ) (times : List ℚ) (s : Counters) : Prop where
  kept : Kept (config.windowMs * 2) now s
  counts : ∀ start, now < start + config.windowMs * 2 →
    s.get now start = (inAligned config start times).length

theorem tallied_nil (config : WindowConfig) (now : ℚ) :
    Tallied config now [] fun _ => none where
  kept _ _ hc := (Option.some_ne_none _ hc.symm).elim
  counts _ _ := Counters.get_of_none rfl

theorem Tallied.mono (h : Tallied config now times s) (hle : now ≤ later) :
    Tallied config later times s where
  kept := h.kept.mono hle
  counts start hkept := by
    rw [h.kept.get_eq hle hkept, h.counts start (hle.trans_lt hkept)]

theorem Tallied.admit (h : Tallied config now times s) :
    Tallied config now (now :: times)
      (s.incr now (windowStart config now) (config.windowMs * 2)).2 where
  kept := h.kept.incr (windowStart_le config now)
  counts start hkept := by
    rw [inAligned_cons]
    -- the counter of the call's own window is raised, and the others are left
    by_cases hstart : windowStart config now = start
    · subst hstart
      rw [if_pos rfl, List.length_cons, h.kept.get_incr (windowStart_le config now) hkept,
        h.counts _ hkept]
    · rw [if_neg hstart, Counters.get_incr_of_ne (Ne.symm hstart), h.counts _ hkept]

/-! ### One call -/

theorem slidingWindowCounter_admitted (h : estimate config now s < config.limit) :
    (slidingWindowCounter config now s).2 =
      (s.incr now (windowStart config now) (config.windowMs * 2)).2 :=
  congrArg Prod.snd (if_pos h)

/-- The call that is admitted counts for one. -/
theorem Tallied.estimate_incr (h : Tallied config now times s) :
    estimate config now (s.incr now (windowStart config now) (config.windowMs * 2)).2 =
      estimate config now s + 1 := by
  have hwindow := config.window_pos
  have hkept : now < windowStart config now + config.windowMs * 2 := by
    linarith [lt_windowStart_add config now]
  have hother : windowStart config now - config.windowMs ≠ windowStart config now := by linarith
  rw [estimate, estimate, h.kept.get_incr (windowStart_le config now) hkept,
    Counters.get_incr_of_ne hother]
  push_cast
  ring

/-- The current window is not full when a call is admitted. -/
theorem Tallied.current_lt (h : Tallied config now times s)
    (hless : estimate config now s < config.limit) :
    ((inAligned config (windowStart config now) times).length : ℚ) < config.limit := by
  have hwindow := config.window_pos
  have hkept : now < windowStart config now + config.windowMs * 2 := by
    linarith [lt_windowStart_add config now]
  -- the window before adds nothing negative to the estimate
  have hprevious := mul_nonneg (Nat.cast_nonneg (α := ℚ)
    (s.get now (windowStart config now - config.windowMs))) (weight_nonneg config now)
  rw [← h.counts _ hkept]
  unfold estimate at hless
  linarith

/-! ### All calls -/

theorem tallied_after (h : config.slidingWindowCounter.Before t calls) :
    Tallied config t (config.slidingWindowCounter.admittedTimes calls)
      (config.slidingWindowCounter.after calls) := by
  induction calls generalizing t with
  | nil => exact tallied_nil config t
  | cons call earlier ih =>
    obtain ⟨cost, now⟩ := call
    obtain ⟨hle, hearlier⟩ := h.earlier
    have htallied := ih hearlier
    refine Tallied.mono ?_ hle
    show Tallied config now (if (slidingWindowCounter config now _).1.allowed = true then _ else _)
      (slidingWindowCounter config now _).2
    split
    · next hallowed =>
      rw [slidingWindowCounter_admitted ((slidingWindowCounter_allowed config now _).mp hallowed)]
      exact htallied.admit
    · next hdenied =>
      rw [slidingWindowCounter_denied config (Bool.not_eq_true _ ▸ hdenied)]
      exact htallied

theorem inAligned_le (h : config.slidingWindowCounter.Before t calls) {n : ℕ}
    (hlimit : config.limit = n) (start : ℚ) :
    (inAligned config start (config.slidingWindowCounter.admittedTimes calls)).length ≤ n := by
  induction calls generalizing t with
  | nil => exact Nat.zero_le _
  | cons call earlier ih =>
    obtain ⟨cost, now⟩ := call
    obtain ⟨hle, hearlier⟩ := h.earlier
    have hrest := ih hearlier
    rw [Limiter.admittedTimes]
    split
    · next hallowed =>
      have hless := (slidingWindowCounter_allowed config now _).mp hallowed
      have hcurrent := (tallied_after hearlier).current_lt hless
      rw [inAligned_cons]
      split
      · next hstart =>
        rw [hlimit, hstart] at hcurrent
        exact Nat.succ_le_of_lt (by exact_mod_cast hcurrent)
      · exact hrest
    · exact hrest

end Counters

/-- The counters are those of the history, no aligned window has more than the limit, and the
estimate stays within one call of it. -/
theorem slidingWindowCounter_estimated (config : WindowConfig) (n : ℕ) (calls : List (Unit × ℚ))
    (now : ℚ) (hlimit : config.limit = n)
    (hcalls : config.slidingWindowCounter.Before now calls) : Estimated config calls now := by
  have hwindow := config.window_pos
  have hstart := lt_windowStart_add config now
  have htallied := tallied_after hcalls
  refine ⟨htallied.counts _ (by linarith), htallied.counts _ (by linarith), fun start => ?_,
    fun hallowed => ?_⟩
  · rw [hlimit]
    exact_mod_cast inAligned_le hcalls hlimit start
  · have hless := (slidingWindowCounter_allowed config now _).mp hallowed
    show estimate config now (slidingWindowCounter config now _).2 < _
    rw [slidingWindowCounter_admitted hless, htallied.estimate_incr]
    exact add_lt_add_left hless 1

/-- One call in the window before, and a second one at half past. -/
theorem slidingWindowCounter_estimated_oneAWindow :
    Estimated oneAWindow [((), 0)] 1500 :=
  slidingWindowCounter_estimated oneAWindow 1 [((), 0)] 1500 (by norm_num [oneAWindow])
    (by simp [Limiter.Before])

/-- The second call is admitted with half of the first one still in the window. -/
theorem estimateAtMost_fails : ¬∀ config : WindowConfig, ∀ n : ℕ, config.limit = n →
    EstimateAtMost config := by
  intro h
  have hle := h oneAWindow 1 (by norm_num [oneAWindow]) [((), 0)] 1500
    (by simp [Limiter.Before]) (by decide +kernel)
  revert hle
  decide +kernel

end CloudMesh.RateLimiter
