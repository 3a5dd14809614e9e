import CloudMesh.RateLimiter.Histories
import Mathlib.Algebra.Order.Floor.Semiring

/-!
# The fixed window against the history of calls

What `fixedWindow` counts, compared with the times of all calls. The counter is exact, and of every
aligned window the first calls are admitted, up to the limit. A window that is not aligned overlaps
two that are, so that it can have twice the limit, and there are calls that take it there.

## Main definitions

- `CallsCounted` — the counter and the admitted calls against the history
- `fixedWindow_counted` — they agree after any calls
- `fixedWindow_bursts` — the bound on a window that is not aligned is met in any short time
-/

namespace CloudMesh.RateLimiter

/-- The fixed window against the history, at a call at `now`. -/
structure CallsCounted (config : WindowConfig) (calls : List (Unit × ℚ)) (now : ℚ) : Prop where
  /-- Denied calls count as well. -/
  current : Counters.get (config.fixedWindow.after calls) now (windowStart config now) =
    (inAligned config (windowStart config now) (calls.map Prod.snd)).length
  admits : (config.fixedWindow.call () now (config.fixedWindow.after calls)).1.allowed = true ↔
    (inAligned config (windowStart config now) (calls.map Prod.snd)).length < ⌊config.limit⌋₊
  /-- Of every aligned window as many calls are admitted as the limit lets through. -/
  aligned : ∀ start, (inAligned config start (config.fixedWindow.admittedTimes calls)).length =
    min (inAligned config start (calls.map Prod.snd)).length ⌊config.limit⌋₊
  /-- No window has more than twice the limit. -/
  bounded : ∀ t, (inWindow config t (config.fixedWindow.admittedTimes calls)).length ≤
    2 * ⌊config.limit⌋₊
  /-- After the call and `k` more at the same time, `remaining` tells whether there is room for one
  more. -/
  remaining : ∀ k : ℕ, (config.fixedWindow.call () now (config.fixedWindow.after
      (List.replicate k ((), now) ++ ((), now) :: calls))).1.allowed = true ↔
    (k : ℚ) + 1 ≤ (config.fixedWindow.call () now (config.fixedWindow.after calls)).1.remaining

section Counting

variable {config : WindowConfig} {t now start other : ℚ} {times : List ℚ} {s : Counters}
  {calls : List (Unit × ℚ)}

/-- The counters have the calls of each window, whether they have expired or not. -/
structure Totalled (config : WindowConfig) (now : ℚ) (times : List ℚ) (s : Counters) : Prop where
  kept : Kept config.windowMs now s
  counts : ∀ start, (s start).elim 0 Counter.count = (inAligned config start times).length

/-- The counter of the window that is running has not expired. -/
theorem Kept.get_current (h : Kept config.windowMs now s) :
    s.get now (windowStart config now) = (s (windowStart config now)).elim 0 Counter.count := by
  cases hc : s (windowStart config now) with
  | none => rw [Counters.get_of_none hc, Option.elim_none]
  | some c =>
    obtain ⟨-, e, he, hlive⟩ := h _ c hc
    rw [Counters.get_of_some hc he ((lt_windowStart_add config now).trans_le hlive),
      Option.elim_some]

theorem Totalled.current (h : Totalled config now times s) :
    s.get now (windowStart config now) =
      (inAligned config (windowStart config now) times).length := by
  rw [h.kept.get_current, h.counts]

/-- A call counts in its own window, whatever becomes of it. -/
theorem Totalled.call (h : Totalled config now times s) :
    Totalled config now (now :: times) (fixedWindow config now s).2 where
  kept := h.kept.incr (windowStart_le config now)
  counts start := by
    show ((s.incr now (windowStart config now) config.windowMs).2 start).elim 0 _ = _
    rw [inAligned_cons]
    by_cases hstart : windowStart config now = start
    · subst hstart
      rw [if_pos rfl, List.length_cons, Counters.incr_self, Option.elim_some, h.current]
    · rw [if_neg hstart, Counters.incr_of_ne (Ne.symm hstart), h.counts]

theorem totalled_after (h : config.fixedWindow.Before t calls) :
    Totalled config t (calls.map Prod.snd) (config.fixedWindow.after calls) := by
  induction calls generalizing t with
  | nil => exact ⟨fun _ _ hc => (Option.some_ne_none _ hc.symm).elim, fun _ => rfl⟩
  | cons call earlier ih =>
    obtain ⟨cost, now⟩ := call
    obtain ⟨hle, hearlier⟩ := h.earlier
    have hcall := (ih hearlier).call
    exact ⟨hcall.kept.mono hle, hcall.counts⟩

/-- A call is admitted as long as the window has room. -/
theorem Totalled.allowed_iff (h : Totalled config now times s) :
    (fixedWindow config now s).1.allowed = true ↔
      (inAligned config (windowStart config now) times).length < ⌊config.limit⌋₊ := by
  have hpos : 0 ≤ config.limit := config.limit_pos.le
  rw [← h.current, ← Nat.succ_le_iff, Nat.le_floor_iff hpos]
  exact decide_eq_true_iff

theorem aligned_after (h : config.fixedWindow.Before t calls) (start : ℚ) :
    (inAligned config start (config.fixedWindow.admittedTimes calls)).length =
      min (inAligned config start (calls.map Prod.snd)).length ⌊config.limit⌋₊ := by
  induction calls generalizing t with
  | nil => exact (Nat.zero_min _).symm
  | cons call earlier ih =>
    obtain ⟨cost, now⟩ := call
    obtain ⟨hle, hearlier⟩ := h.earlier
    have hrest := ih hearlier
    have hallowed := (totalled_after hearlier).allowed_iff
    rw [List.map_cons, inAligned_cons, Limiter.admittedTimes]
    by_cases hstart : windowStart config now = start
    · -- the call is one of the window, and is admitted if there is room
      subst hstart
      rw [if_pos rfl, List.length_cons]
      split
      · next hyes =>
        have hroom := hallowed.mp hyes
        rw [inAligned_cons, if_pos rfl, List.length_cons, hrest]
        omega
      · next hno =>
        have hfull := mt hallowed.mpr hno
        rw [hrest]
        omega
    · rw [if_neg hstart]
      split
      · rw [inAligned_cons, if_neg hstart, hrest]
      · exact hrest

end Counting

/-! ## Windows that are not aligned -/

section Overlap

variable {config : WindowConfig} {t x a b : ℚ} {times : List ℚ} {calls : List (Unit × ℚ)}

theorem length_eq_of_two (hab : a ≠ b)
    (h : ∀ x ∈ times, windowStart config x = a ∨ windowStart config x = b) :
    times.length = (inAligned config a times).length + (inAligned config b times).length := by
  induction times with
  | nil => rfl
  | cons x times ih =>
    have hrest := ih fun y hy => h y (List.mem_cons_of_mem _ hy)
    rw [inAligned_cons, inAligned_cons, List.length_cons]
    rcases h x List.mem_cons_self with hx | hx
    · rw [if_pos hx, if_neg (hx ▸ hab), List.length_cons]
      omega
    · rw [if_neg (hx ▸ hab.symm), if_pos hx, List.length_cons]
      omega

/-- A time of the last window lies in the aligned window of `t` or in the one before. -/
theorem windowStart_of_inWindow (hx : t - config.windowMs < x ∧ x ≤ t) :
    windowStart config x = windowStart config t ∨
      windowStart config x = windowStart config t - config.windowMs := by
  have hnext := lt_windowStart_add config x
  by_cases hlate : windowStart config x + config.windowMs ≤ t
  · right
    have htwo : t < windowStart config x + config.windowMs + config.windowMs := by
      linarith [hx.1]
    rw [windowStart_next hlate htwo]
    ring
  · left
    have hle : windowStart config x ≤ t := (windowStart_le config x).trans hx.2
    have hfloor : ⌊x / config.windowMs⌋ = ⌊t / config.windowMs⌋ := by
      symm
      rw [Int.floor_eq_iff, le_div_iff₀ config.window_pos, div_lt_iff₀ config.window_pos]
      unfold windowStart at hle hlate
      constructor <;> linarith
    rw [windowStart, windowStart, hfloor]

theorem length_inWindow_le_aligned (config : WindowConfig) (t : ℚ) (times : List ℚ) :
    (inWindow config t times).length ≤
      (inAligned config (windowStart config t) times).length +
        (inAligned config (windowStart config t - config.windowMs) times).length := by
  have hwindow := config.window_pos
  have hne : windowStart config t ≠ windowStart config t - config.windowMs := by linarith
  have hsub : (inWindow config t times).Sublist times := List.filter_sublist
  have hsplit : (inWindow config t times).length =
      (inAligned config (windowStart config t) (inWindow config t times)).length +
        (inAligned config (windowStart config t - config.windowMs)
          (inWindow config t times)).length :=
    length_eq_of_two hne fun x hx =>
      windowStart_of_inWindow (of_decide_eq_true (List.mem_filter.mp hx).2)
  have hfirst := (hsub.filter fun x => windowStart config x = windowStart config t).length_le
  have hsecond := (hsub.filter fun x =>
    windowStart config x = windowStart config t - config.windowMs).length_le
  unfold inAligned at hsplit ⊢
  omega

end Overlap

/-! ## The calls that are admitted -/

section Admitted

variable {config : WindowConfig} {t now : ℚ} {calls : List (Unit × ℚ)}

theorem length_inAligned_replicate (start : ℚ) (k : ℕ) : (inAligned config start
    ((List.replicate k (((), now) : Unit × ℚ)).map Prod.snd)).length =
      if windowStart config now = start then k else 0 := by
  rw [List.map_replicate, inAligned, List.filter_replicate]
  by_cases hstart : windowStart config now = start
  · rw [if_pos (decide_eq_true hstart), if_pos hstart, List.length_replicate]
  · rw [if_neg (by simpa using hstart), if_neg hstart, List.length_nil]

theorem inAligned_append (start : ℚ) (xs ys : List ℚ) :
    inAligned config start (xs ++ ys) = inAligned config start xs ++ inAligned config start ys :=
  List.filter_append _ _

theorem Limiter.Before.later {u : ℚ} (h : config.fixedWindow.Before t calls) (hle : t ≤ u) :
    config.fixedWindow.Before u calls := by
  obtain ⟨hfirst, hrest⟩ := List.pairwise_cons.mp h
  exact List.pairwise_cons.mpr ⟨fun x hx => (hfirst x hx).trans hle, hrest⟩

theorem before_replicate (h : config.fixedWindow.Before now calls) (k : ℕ) :
    config.fixedWindow.Before now (List.replicate k ((), now) ++ calls) := by
  induction k with
  | zero => exact h
  | succ k ih =>
    rw [List.replicate_succ, List.cons_append]
    refine List.pairwise_cons.mpr ⟨fun x hx => ?_, ih⟩
    rcases List.mem_cons.mp hx with rfl | hx
    · exact le_rfl
    · exact (List.pairwise_cons.mp ih).1 x hx

end Admitted

/-- After any calls in order, the counter is exact, and the limit is kept in aligned windows. -/
theorem fixedWindow_counted (config : WindowConfig) (calls : List (Unit × ℚ)) (now : ℚ)
    (hcalls : config.fixedWindow.Before now calls) : CallsCounted config calls now := by
  have htotal := totalled_after hcalls
  refine ⟨htotal.current, htotal.allowed_iff, aligned_after hcalls, fun t => ?_, fun k => ?_⟩
  · have hsplit := length_inWindow_le_aligned config t (config.fixedWindow.admittedTimes calls)
    rw [aligned_after hcalls, aligned_after hcalls] at hsplit
    omega
  · have hmore : config.fixedWindow.Before now
        (List.replicate k ((), now) ++ ((), now) :: calls) :=
      before_replicate (before_replicate hcalls 1) k
    have hallowed := (totalled_after hmore).allowed_iff
    rw [List.map_append, inAligned_append, List.length_append, length_inAligned_replicate,
      if_pos rfl, List.map_cons, inAligned_cons, if_pos rfl, List.length_cons] at hallowed
    rw [hallowed]
    show _ ↔ (k : ℚ) + 1 ≤ max 0 (config.limit -
      ((Counters.get (config.fixedWindow.after calls) now (windowStart config now) + 1 : ℕ) : ℚ))
    rw [htotal.current, le_max_iff, Nat.lt_iff_add_one_le, Nat.le_floor_iff config.limit_pos.le]
    have hneg : ¬(k : ℚ) + 1 ≤ 0 := by linarith [(Nat.cast_nonneg k : (0 : ℚ) ≤ k)]
    push_cast
    constructor
    · intro h
      right
      linarith
    · rintro (h | h)
      · exact absurd h hneg
      · linarith

/-- Two calls at the end of a window, and two at the beginning of the next one. -/
theorem fixedWindow_counted_burst :
    CallsCounted ⟨2, 1000, one_le_two, Nat.one_le_ofNat⟩
      [((), 1000), ((), 1000), ((), 999), ((), 999)] 1000 :=
  fixedWindow_counted _ _ _ (by simp [Limiter.Before]; norm_num)

/-- As many calls as the limit at one time, and as many at another. -/
def burst (config : WindowConfig) (early late : ℚ) : List (Unit × ℚ) :=
  List.replicate ⌊config.limit⌋₊ ((), late) ++ List.replicate ⌊config.limit⌋₊ ((), early)

theorem mem_burst {config : WindowConfig} {early late : ℚ} {call : Unit × ℚ}
    (h : call ∈ burst config early late) : call.2 = late ∨ call.2 = early := by
  rcases List.mem_append.mp h with h | h
  · exact .inl (congrArg Prod.snd (List.eq_of_mem_replicate h))
  · exact .inr (congrArg Prod.snd (List.eq_of_mem_replicate h))

theorem before_burst {config : WindowConfig} {early late : ℚ} (hle : early ≤ late) :
    config.fixedWindow.Before late (burst config early late) := by
  have hnone : config.fixedWindow.Before early [] := List.pairwise_singleton _ _
  have hfirst := before_replicate hnone ⌊config.limit⌋₊
  rw [List.append_nil] at hfirst
  exact before_replicate (hfirst.later hle) ⌊config.limit⌋₊

/-- In two windows a burst has its calls at both times admitted. -/
theorem length_admitted_burst {config : WindowConfig} {early late : ℚ} (hle : early ≤ late)
    (hne : windowStart config late ≠ windowStart config early) :
    (config.fixedWindow.admittedTimes (burst config early late)).length =
      2 * ⌊config.limit⌋₊ := by
  have hstart : ∀ x ∈ config.fixedWindow.admittedTimes (burst config early late),
      windowStart config x = windowStart config late ∨
        windowStart config x = windowStart config early := by
    intro x hx
    obtain ⟨call, hcall, rfl⟩ := Limiter.mem_admittedTimes hx
    rcases mem_burst hcall with hcall | hcall
    · exact .inl (congrArg (windowStart config) hcall)
    · exact .inr (congrArg (windowStart config) hcall)
  have hcalls : config.fixedWindow.Before late (burst config early late) := before_burst hle
  rw [length_eq_of_two hne hstart, aligned_after hcalls, aligned_after hcalls, burst]
  simp only [List.map_append, inAligned_append, List.length_append, length_inAligned_replicate,
    if_true, if_neg hne, if_neg hne.symm]
  omega

/-- In any short time there can be twice the limit. -/
theorem fixedWindow_bursts (config : WindowConfig) (ε : ℚ) (hε : 0 < ε) :
    ∃ calls t, config.fixedWindow.Before t calls ∧
      (∀ call ∈ calls, t - ε < call.2) ∧
      (config.fixedWindow.admittedTimes calls).length = 2 * ⌊config.limit⌋₊ := by
  have hwindow := config.window_pos
  -- as many as the limit just before the boundary, and as many at the boundary
  obtain ⟨early, hlt, hnonneg, hclose⟩ : ∃ early, early < config.windowMs ∧ 0 ≤ early ∧
      config.windowMs - ε < early := by
    have hle := min_le_right ε config.windowMs
    have hle' := min_le_left ε config.windowMs
    have hmin : 0 < min ε config.windowMs := lt_min hε hwindow
    exact ⟨config.windowMs - min ε config.windowMs / 2, by linarith, by linarith, by linarith⟩
  have hearly : windowStart config early = 0 := by
    have hfloor : ⌊early / config.windowMs⌋ = 0 := by
      rw [Int.floor_eq_iff, le_div_iff₀ hwindow, div_lt_iff₀ hwindow]
      constructor <;> norm_num <;> linarith
    rw [windowStart, hfloor, Int.cast_zero, zero_mul]
  have hlate : windowStart config config.windowMs = config.windowMs := by
    rw [windowStart, div_self hwindow.ne', Int.floor_one, Int.cast_one, one_mul]
  have hne : windowStart config config.windowMs ≠ windowStart config early := by
    rw [hearly, hlate]
    exact hwindow.ne'
  refine ⟨burst config early config.windowMs, config.windowMs, before_burst hlt.le,
    fun call hcall => ?_, length_admitted_burst hlt.le hne⟩
  rcases mem_burst hcall with hcall | hcall
  · rw [hcall]
    exact sub_lt_self _ hε
  · rw [hcall]
    exact hclose

/-- With 2 calls a second, there can be 4 in a millisecond. -/
theorem fixedWindow_bursts_second : ∃ (calls : List (Unit × ℚ)) (t : ℚ),
    (WindowConfig.fixedWindow ⟨2, 1000, one_le_two, Nat.one_le_ofNat⟩).Before t calls ∧
      (∀ call ∈ calls, t - 1 < call.2) ∧
      ((WindowConfig.fixedWindow ⟨2, 1000, one_le_two, Nat.one_le_ofNat⟩).admittedTimes
        calls).length = 2 * ⌊(2 : ℚ)⌋₊ :=
  fixedWindow_bursts ⟨2, 1000, one_le_two, Nat.one_le_ofNat⟩ 1 one_pos

end CloudMesh.RateLimiter
