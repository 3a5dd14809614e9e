import CloudMesh.Errors
import CloudMesh.Sdk.Retry

/-!
# What the clients wait for

The README of the JavaScript client and the comments of both say that `Retry-After` is honoured.
Both look at the class of the error, and only that of a 429 carries the header: after any other
response they wait for the backoff, whatever the server has asked for. In JavaScript `fetch` also
sends the request again after a 421, and the client does after a 407, which `fetch` rejects.

## Main definitions

- `Honours` — the law of the retries of one run
- `HonoursFrom` — the same law of the rest of a run
- `Retried` — a response that is followed by another request
- `JsSuits`, `PySuits` — a response after which the client waits as it should
- `honours_iff` — a run obeys the law if and only if every response in it that is retried suits
-/

namespace CloudMesh

namespace Sdk

namespace Retry

/-! ## The law -/

/-- The header as a number of seconds, without a sign. -/
def decimalSeconds (header : Option (List UInt8)) : Option ℚ :=
  header.bind fun h => magnitude (latin1 h)

/-- What follows a response is a wait of as long as it says, and of the backoff if it says
nothing. `clock` is what passes when the client asks for a time. -/
structure Waited (clock : ℚ → ℚ) (k : ℕ) (r : Response) (wait : ℚ) : Prop where
  asked : ∀ x, decimalSeconds r.retryAfter = some x → x * 1000 ≤ clock wait
  unasked : r.retryAfter = none → wait = 250 * 2 ^ k

structure Honours (clock : ℚ → ℚ) (maxRetries : ℕ) (responses : List Response) (run : Run) :
    Prop where
  requests : run.requests = run.waits.length + 1
  bounded : run.waits.length ≤ maxRetries
  waited : ∀ k wait, run.waits[k]? = some wait → ∃ r, responses[k]? = some r ∧
    (r.status = 429 ∨ 500 ≤ r.status) ∧ Waited clock k r wait

/-- `time.sleep` sleeps for at least the time, in whole nanoseconds. -/
def nanoseconds (wait : ℚ) : ℚ := ⌈wait * 10 ^ 6⌉ / 10 ^ 6

/-! ## The law from an attempt on -/

section Law

variable {clock : ℚ → ℚ} {maxRetries attempt k : ℕ} {responses : List Response} {r : Response}
  {run : Run}

/-- The law of the part of a run from an attempt on. -/
structure HonoursFrom (clock : ℚ → ℚ) (maxRetries attempt : ℕ) (responses : List Response)
    (run : Run) : Prop where
  requests : run.requests = run.waits.length + 1
  bounded : attempt + run.waits.length ≤ maxRetries
  waited : ∀ k wait, run.waits[k]? = some wait → ∃ r, responses[k]? = some r ∧
    r.retryable = true ∧ Waited clock (attempt + k) r wait

theorem retryable_iff : r.retryable = true ↔ r.status = 429 ∨ 500 ≤ r.status := by
  rw [Response.retryable, decide_eq_true_eq]

theorem honours_iff_honoursFrom :
    Honours clock maxRetries responses run ↔ HonoursFrom clock maxRetries 0 responses run := by
  constructor
  · intro h
    refine ⟨h.requests, (Nat.zero_add _).trans_le h.bounded, fun k wait hk => ?_⟩
    obtain ⟨r, hr, hstatus, hwaited⟩ := h.waited k wait hk
    exact ⟨r, hr, retryable_iff.mpr hstatus, (Nat.zero_add k).symm ▸ hwaited⟩
  · intro h
    refine ⟨h.requests, (Nat.zero_add _).symm.trans_le h.bounded, fun k wait hk => ?_⟩
    obtain ⟨r, hr, hretryable, hwaited⟩ := h.waited k wait hk
    exact ⟨r, hr, retryable_iff.mp hretryable, Nat.zero_add k ▸ hwaited⟩

/-- A run that sends one request and waits for nothing breaks no law. -/
theorem honoursFrom_end (outcome : Outcome) (h : attempt ≤ maxRetries) :
    HonoursFrom clock maxRetries attempt responses ⟨1, [], outcome⟩ :=
  ⟨rfl, h, fun k wait hk => by simp at hk⟩

/-- A run that goes on obeys the law if the response that it goes on after does, and the rest. -/
theorem honoursFrom_after_iff {wait : ℚ} :
    HonoursFrom clock maxRetries attempt (r :: responses) (run.after wait) ↔
      (attempt ≠ maxRetries ∧ r.retryable = true ∧ Waited clock attempt r wait) ∧
        HonoursFrom clock maxRetries (attempt + 1) responses run := by
  constructor
  · intro h
    have hbounded : attempt + (run.waits.length + 1) ≤ maxRetries := h.bounded
    obtain ⟨r', hr', hretryable, hwaited⟩ := h.waited 0 wait rfl
    obtain rfl : r = r' := Option.some.inj hr'
    refine ⟨⟨by omega, hretryable, hwaited⟩, Nat.succ.inj h.requests, by omega, ?_⟩
    intro k w hk
    obtain ⟨r', hr', hgoes⟩ := h.waited (k + 1) w hk
    exact ⟨r', hr', by rwa [show attempt + 1 + k = attempt + (k + 1) by omega]⟩
  · rintro ⟨⟨hne, hretryable, hwaited⟩, h⟩
    have hbounded := h.bounded
    refine ⟨congrArg (· + 1) h.requests, ?_, fun k w hk => ?_⟩
    · show attempt + (run.waits.length + 1) ≤ maxRetries
      omega
    · cases k with
      | zero =>
        obtain rfl : wait = w := Option.some.inj hk
        exact ⟨r, rfl, hretryable, hwaited⟩
      | succ k =>
        obtain ⟨r', hr', hgoes⟩ := h.waited k w hk
        exact ⟨r', hr', by rwa [show attempt + (k + 1) = attempt + 1 + k by omega]⟩

end Law

/-! ## Responses that are followed by another request -/

section Retried

variable {goes : ℕ → Response → Prop} {P : ℕ → Response → Prop} {responses : List Response}
  {r : Response}

/-- Response number `k` is followed by another request: the client goes on after it and all
before it. -/
structure Retried (goes : ℕ → Response → Prop) (responses : List Response) (k : ℕ)
    (r : Response) : Prop where
  mem : responses[k]? = some r
  goes : ∀ i ≤ k, ∀ r', responses[i]? = some r' → goes i r'

/-- JavaScript goes on after a response. It does after a 407, which `fetch` rejects, and after a
421, which `fetch` itself answers by the same request. Up to the first 421 the number of a response
is that of its attempt. -/
def JsGoesOn (maxRetries k : ℕ) (r : Response) : Prop :=
  r.status = 421 ∨
    k ≠ maxRetries ∧ (r.status = 407 ∨ r.retryable = true ∧ (jsError r).isSome = true)

/-- Python goes on after a response, if it can wait. -/
def PyGoesOn (maxRetries k : ℕ) (r : Response) : Prop :=
  r.retryable = true ∧ k ≠ maxRetries ∧ (pyWait k (pyError r)).isSome = true

theorem retried_zero_iff {r' : Response} :
    Retried goes (r :: responses) 0 r' ↔ r = r' ∧ goes 0 r := by
  constructor
  · intro h
    exact ⟨Option.some.inj h.mem, h.goes 0 le_rfl r rfl⟩
  · rintro ⟨rfl, hgoes⟩
    refine ⟨rfl, fun i hi s hs => ?_⟩
    obtain rfl : i = 0 := Nat.le_zero.mp hi
    obtain rfl : r = s := Option.some.inj hs
    exact hgoes

theorem retried_succ_iff {k : ℕ} {r' : Response} :
    Retried goes (r :: responses) (k + 1) r' ↔
      goes 0 r ∧ Retried (fun i => goes (i + 1)) responses k r' := by
  constructor
  · intro h
    refine ⟨h.goes 0 (Nat.zero_le _) r rfl, h.mem, fun i hi s hs => ?_⟩
    exact h.goes (i + 1) (Nat.succ_le_succ hi) s hs
  · rintro ⟨hgoes, h⟩
    refine ⟨h.mem, fun i hi s hs => ?_⟩
    cases i with
    | zero =>
      obtain rfl : r = s := Option.some.inj hs
      exact hgoes
    | succ i => exact h.goes i (Nat.le_of_succ_le_succ hi) s hs

/-- What holds of every response that is retried, response by response. -/
theorem forall_retried_cons_iff (attempt : ℕ) :
    (∀ k r', Retried (fun i => goes (attempt + i)) (r :: responses) k r' → P (attempt + k) r') ↔
      (goes attempt r → P attempt r ∧
        ∀ k r', Retried (fun i => goes (attempt + 1 + i)) responses k r' →
          P (attempt + 1 + k) r') := by
  have hnext : ∀ k, attempt + 1 + k = attempt + (k + 1) := fun k => by omega
  constructor
  · intro h hgoes
    refine ⟨h 0 r (retried_zero_iff.mpr ⟨rfl, hgoes⟩), fun k r' hr' => ?_⟩
    simp only [hnext] at hr' ⊢
    exact h (k + 1) r' (retried_succ_iff.mpr ⟨hgoes, hr'⟩)
  · intro h k r' hr'
    cases k with
    | zero =>
      obtain ⟨rfl, hgoes⟩ := retried_zero_iff.mp hr'
      exact (h hgoes).1
    | succ k =>
      obtain ⟨hgoes, hrest⟩ := retried_succ_iff.mp hr'
      have hall := (h hgoes).2 k r'
      simp only [hnext] at hall
      exact hall hrest

theorem forall_retried_nil (P : ℕ → Response → Prop) (k : ℕ) (r' : Response)
    (h : Retried goes [] k r') : P k r' := by
  have hmem := h.mem
  simp at hmem

end Retried

/-! ## Headers -/

/-- A whole number of at least `least` lies from the rounded number `z` on and below `a`. -/
def RoundsBelow (least : ℕ) (z a : ℚ) : Prop := ∃ n : ℕ, least ≤ n ∧ z ≤ n ∧ (n : ℚ) < a

/-- `setTimeout` can wait for the seconds, and no whole millisecond of them is rounded away. -/
def KeptByTimer (x : ℚ) : Prop :=
  ∃ y z, Numeric.ofRat x = .finite y ∧ Numeric.ofRat (y * 1000) = .finite z ∧
    ⌈z⌉ ≤ 2147483647 ∧ ¬RoundsBelow 1 z (x * 1000)

/-- No whole nanosecond of the seconds is rounded away. -/
def KeptBySleep (x : ℚ) : Prop :=
  ∀ y, Numeric.ofRat x = .finite y → ¬RoundsBelow 0 (y * 10 ^ 9) (x * 10 ^ 9)

/-- A response to attempt `k` after which JavaScript waits as it should. -/
structure JsSuits (k : ℕ) (r : Response) : Prop where
  passed : r.status ≠ 407 ∧ r.status ≠ 421
  unasked : r.retryAfter = none → k ≤ 23
  limited : r.status = 429 → ∀ x, decimalSeconds r.retryAfter = some x → KeptByTimer x
  otherwise : r.status ≠ 429 → ∀ x, decimalSeconds r.retryAfter = some x →
    x * 1000 ≤ if k ≤ 23 then 250 * 2 ^ k else 1

/-- A response to attempt `k` after which Python waits as it should. -/
structure PySuits (k : ℕ) (r : Response) : Prop where
  limited : r.status = 429 → ∀ x, decimalSeconds r.retryAfter = some x → KeptBySleep x
  otherwise : r.status ≠ 429 → ∀ x, decimalSeconds r.retryAfter = some x →
    x * 1000 ≤ 250 * 2 ^ k

section Headers

variable {k : ℕ} {r : Response} {x : ℚ}

/-- Rounding up to a whole number does not fall short, unless a whole number lies between. -/
theorem le_ceil_iff {z a : ℚ} (hz : 0 ≤ z) : a ≤ ⌈z⌉ ↔ ¬RoundsBelow 0 z a := by
  constructor
  · rintro hle ⟨n, -, hzn, hna⟩
    have hceil : ⌈z⌉ ≤ n := Int.ceil_le.mpr (by exact_mod_cast hzn)
    have hcast : (⌈z⌉ : ℚ) ≤ n := by exact_mod_cast hceil
    linarith
  · intro hnone
    by_contra hlt
    obtain ⟨n, hn⟩ := Int.eq_ofNat_of_zero_le (Int.ceil_nonneg hz)
    have hcast : (⌈z⌉ : ℚ) = n := by rw [hn]; rfl
    exact hnone ⟨n, Nat.zero_le n, hcast ▸ Int.le_ceil z, hcast ▸ not_le.mp hlt⟩

/-- `setTimeout` waits for one millisecond at least. -/
theorem le_timer_iff {z a : ℚ} (hfits : ⌈z⌉ ≤ 2147483647) :
    a ≤ timer (.finite ⌈z⌉) ↔ ¬RoundsBelow 1 z a := by
  have hfits' : (⌈z⌉ : ℚ) ≤ 2147483647 := by exact_mod_cast hfits
  rw [timer]
  constructor
  · rintro hle ⟨n, hn, hzn, hna⟩
    have hceil : ⌈z⌉ ≤ n := Int.ceil_le.mpr (by exact_mod_cast hzn)
    have hcast : (⌈z⌉ : ℚ) ≤ n := by exact_mod_cast hceil
    have hone : (1 : ℚ) ≤ n := by exact_mod_cast hn
    split_ifs at hle <;> linarith
  · intro hnone
    by_contra hlt
    split_ifs at hlt with hone
    · have hpos : 1 ≤ ⌈z⌉ := by exact_mod_cast hone.1
      obtain ⟨n, hn⟩ := Int.eq_ofNat_of_zero_le (by omega : 0 ≤ ⌈z⌉)
      have hcast : (⌈z⌉ : ℚ) = n := by rw [hn]; rfl
      exact hnone ⟨n, by omega, hcast ▸ Int.le_ceil z, hcast ▸ not_le.mp hlt⟩
    · have hzero : ⌈z⌉ ≤ 0 := by
        by_contra hpos
        exact hone ⟨by exact_mod_cast (by omega : 1 ≤ ⌈z⌉), hfits'⟩
      have hz : z ≤ 0 := by exact_mod_cast Int.ceil_le.mp hzero
      refine hnone ⟨1, le_rfl, hz.trans ?_, ?_⟩
      · norm_num
      · exact_mod_cast not_le.mp hlt

theorem exists_header (h : decimalSeconds r.retryAfter = some x) :
    ∃ header, r.retryAfter = some header ∧ header ≠ [] ∧ 0 ≤ x ∧
      number (latin1 header) = .ofRat x ∧ pyFloat (latin1 header) = some (.ofRat x) := by
  obtain ⟨header, hheader, hx⟩ := Option.bind_eq_some_iff.mp h
  refine ⟨header, hheader, ?_, magnitude_nonneg hx, both_of_magnitude hx⟩
  rintro rfl
  cases hx

theorem rateLimitHeader_of_ne (h : r.status ≠ 429) : r.rateLimitHeader = none := if_neg h

/-- A number of seconds that a timer can wait for is finite. -/
theorem exists_ofRat_of_le (hx : 0 ≤ x) (hle : x * 1000 ≤ 2147483647) :
    ∃ y, Numeric.ofRat x = .finite y ∧ 0 ≤ y ∧ y ≤ 2147484 := by
  have hle : x ≤ (2147484 : ℕ) := by
    push_cast
    linarith
  obtain ⟨y, hy, hpos, hyle⟩ := ofRat_le (by decide) hx hle
  exact ⟨y, hy, hpos, by exact_mod_cast hyle⟩

/-- After a 429, JavaScript waits for long enough if the timer keeps the time. -/
theorem js_limited {error : ApiError} (he : jsError r = some error) (h429 : r.status = 429)
    (h : decimalSeconds r.retryAfter = some x) :
    x * 1000 ≤ jsWait k error ↔ KeptByTimer x := by
  obtain ⟨header, hheader, hne, hx, hjs, -⟩ := exists_header h
  rw [jsWait_eq k he, Response.rateLimitHeader, if_pos h429, hheader, jsRetryAfter]
  have hfilter : (some header).filter (· ≠ []) = some header := by simp [Option.filter, hne]
  rw [hfilter, Option.map_some, hjs]
  cases hy : Numeric.ofRat x with
  | finite y =>
    show x * 1000 ≤ timer (ceilMs (.finite y)) ↔ _
    constructor
    · intro hle
      have hmax := hle.trans (timer_le _)
      by_cases hfits : FitsTimer y
      · obtain ⟨z, hz, hceil⟩ := hfits
        rw [ceilMs_of_ofRat hz, le_timer_iff hceil] at hle
        exact ⟨y, z, hy, hz, hceil, hle⟩
      · -- a time that does not fit is far above the millisecond that is waited for
        rw [timer_of_not_fits hfits] at hle
        obtain ⟨y', hy', hpos, hyle⟩ := ofRat_le (n := 1) (by decide) hx
          (by push_cast; linarith)
        obtain rfl : y = y' := Numeric.finite.inj (hy.symm.trans hy')
        refine absurd (fitsTimer_of_le hpos ?_) hfits
        push_cast at hyle
        linarith
    · rintro ⟨y', z, hy', hz, hceil, hkept⟩
      obtain rfl : y = y' := Numeric.finite.inj (hy.symm.trans hy')
      rw [ceilMs_of_ofRat hz]
      exact (le_timer_iff hceil).mpr hkept
  | _ =>
    show x * 1000 ≤ timer (jsBackoff k) ↔ _
    refine iff_of_false (fun hle => ?_) ?_
    · obtain ⟨y, hfinite, -⟩ := exists_ofRat_of_le hx (hle.trans (timer_le _))
      rw [hy] at hfinite
      cases hfinite
    · rintro ⟨y, _, hfinite, _⟩
      rw [hy] at hfinite
      cases hfinite

/-- After any other response JavaScript waits for the backoff. -/
theorem jsWait_otherwise {error : ApiError} (he : jsError r = some error)
    (h : r.rateLimitHeader = none) :
    jsWait k error = if k ≤ 23 then 250 * 2 ^ k else 1 := by
  rw [jsWait_eq k he, h]
  exact timer_jsBackoff k

theorem jsWaited_iff {error : ApiError} (he : jsError r = some error)
    (hpassed : r.status ≠ 407 ∧ r.status ≠ 421) :
    Waited id k r (jsWait k error) ↔ JsSuits k r := by
  constructor
  · intro h
    refine ⟨hpassed, fun hnone => ?_, fun h429 x hx => (js_limited he h429 hx).mp (h.asked x hx),
      fun h429 x hx => ?_⟩
    · have hwait := h.unasked hnone
      rw [jsWait_otherwise he (by rw [Response.rateLimitHeader, hnone, ite_self])] at hwait
      by_contra hk
      rw [if_neg hk] at hwait
      have hpow : (1 : ℚ) ≤ 2 ^ k := one_le_pow₀ one_le_two
      linarith
    · rw [← jsWait_otherwise he (rateLimitHeader_of_ne h429)]
      exact h.asked x hx
  · intro h
    refine ⟨fun x hx => ?_, fun hnone => ?_⟩
    · by_cases h429 : r.status = 429
      · exact (js_limited he h429 hx).mpr (h.limited h429 x hx)
      · rw [jsWait_otherwise he (rateLimitHeader_of_ne h429)]
        exact h.otherwise h429 x hx
    · rw [jsWait_otherwise he (by rw [Response.rateLimitHeader, hnone, ite_self]),
        if_pos (h.unasked hnone)]

/-- Python asks for the backoff, if it can wait for it. -/
theorem pyWait_otherwise {wait : ℚ} (h : r.rateLimitHeader = none)
    (hwait : pyWait k (pyError r) = some wait) : wait = 250 * 2 ^ k := by
  rw [pyWait_eq, h] at hwait
  have hsleep : sleep (pyBackoff k) = some wait := hwait
  obtain ⟨y, hy, -, -, rfl⟩ := sleep_eq_some_iff.mp hsleep
  obtain rfl := Numeric.finite.inj hy
  ring

theorem nanoseconds_backoff (k : ℕ) : nanoseconds (250 * 2 ^ k) = 250 * 2 ^ k := by
  have hwhole : (250 * 2 ^ k * 10 ^ 6 : ℚ) = ((250 * 2 ^ k * 10 ^ 6 : ℤ) : ℚ) := by push_cast; rfl
  rw [nanoseconds, hwhole, Int.ceil_intCast, ← hwhole, mul_div_cancel_right₀ _ (by norm_num)]

/-- After a 429, Python waits for long enough if no nanosecond is rounded away. -/
theorem py_limited {wait : ℚ} (h429 : r.status = 429) (h : decimalSeconds r.retryAfter = some x)
    (hwait : pyWait k (pyError r) = some wait) :
    x * 1000 ≤ nanoseconds wait ↔ KeptBySleep x := by
  obtain ⟨header, hheader, hne, hx, -, hpy⟩ := exists_header h
  have hfilter : (some header).filter (· ≠ []) = some header := by simp [Option.filter, hne]
  rw [pyWait_eq, Response.rateLimitHeader, if_pos h429, hheader, pyRetryAfter, hfilter,
    Option.bind_some, hpy] at hwait
  obtain ⟨y, hy, hpos, -, rfl⟩ := sleep_eq_some_iff.mp hwait
  have hnanos : 0 ≤ y * 10 ^ 9 := by positivity
  have hscale : x * 1000 ≤ nanoseconds (y * 1000) ↔ x * 10 ^ 9 ≤ ⌈y * 10 ^ 9⌉ := by
    rw [nanoseconds, le_div_iff₀ (by norm_num), show y * 1000 * 10 ^ 6 = y * 10 ^ 9 by ring,
      show x * 1000 * 10 ^ 6 = x * 10 ^ 9 by ring]
  rw [hscale, le_ceil_iff hnanos]
  constructor
  · intro hkept y' hy'
    obtain rfl : y = y' := Numeric.finite.inj (hy.symm.trans hy')
    exact hkept
  · exact fun hkept => hkept y hy

theorem pyWaited_iff {wait : ℚ} (hwait : pyWait k (pyError r) = some wait) :
    Waited nanoseconds k r wait ↔ PySuits k r := by
  have hotherwise : r.rateLimitHeader = none → nanoseconds wait = 250 * 2 ^ k := fun h => by
    rw [pyWait_otherwise h hwait, nanoseconds_backoff]
  constructor
  · intro h
    refine ⟨fun h429 x hx => (py_limited h429 hx hwait).mp (h.asked x hx), fun h429 x hx => ?_⟩
    rw [← hotherwise (rateLimitHeader_of_ne h429)]
    exact h.asked x hx
  · intro h
    refine ⟨fun x hx => ?_, fun hnone => ?_⟩
    · by_cases h429 : r.status = 429
      · exact (py_limited h429 hx hwait).mpr (h.limited h429 x hx)
      · rw [hotherwise (rateLimitHeader_of_ne h429)]
        exact h.otherwise h429 x hx
    · exact pyWait_otherwise (by rw [Response.rateLimitHeader, hnone, ite_self]) hwait

end Headers

section Clients

variable {maxRetries attempt : ℕ}

theorem jsHonours_iff (responses : List Response) (h : attempt ≤ maxRetries) :
    HonoursFrom id maxRetries attempt responses (jsRequest maxRetries false attempt responses) ↔
      ∀ k r, Retried (fun i => JsGoesOn maxRetries (attempt + i)) responses k r →
        JsSuits (attempt + k) r := by
  induction responses generalizing attempt with
  | nil => exact iff_of_true (honoursFrom_end _ h) (forall_retried_nil _)
  | cons r responses ih =>
    rw [forall_retried_cons_iff, jsRequest.eq_def]
    dsimp only
    by_cases hpassed : r.status ≠ 407 ∧ r.status ≠ 421
    · rw [if_neg fun hboth => hpassed.2 hboth.1, if_neg hpassed.1]
      have hgoes : JsGoesOn maxRetries attempt r ↔
          attempt ≠ maxRetries ∧ r.retryable = true ∧ (jsError r).isSome = true := by
        rw [JsGoesOn, or_iff_right hpassed.2, or_iff_right hpassed.1]
      rw [hgoes]
      cases hok : r.ok with
      | true =>
        refine iff_of_true (honoursFrom_end _ h) fun hgoes => ?_
        rw [not_retryable_of_ok hok] at hgoes
        cases hgoes.2.1
      | false =>
        rw [if_neg Bool.false_ne_true]
        cases he : jsError r with
        | none => exact iff_of_true (honoursFrom_end _ h) fun hgoes => by cases hgoes.2.2
        | some error =>
          dsimp only
          by_cases hends : (!r.retryable) = true ∨ attempt = maxRetries
          · rw [if_pos hends]
            refine iff_of_true (honoursFrom_end _ h) fun hgoes => ?_
            rcases hends with hfinal | hlast
            · rw [hgoes.2.1] at hfinal
              cases hfinal
            · exact absurd hlast hgoes.1
          · obtain ⟨hretryable, hne⟩ := not_or.mp hends
            rw [Bool.not_eq_true', Bool.not_eq_false] at hretryable
            have hleft : attempt ≠ maxRetries ∧ r.retryable = true ∧
                (some error).isSome = true := ⟨hne, hretryable, rfl⟩
            rw [if_neg hends, honoursFrom_after_iff, ih (by omega), imp_iff_right hleft,
              and_iff_right hne, and_iff_right hretryable, jsWaited_iff he hpassed]
    · -- the request goes out again, though the response cannot be retried
      have hstatus : r.status = 407 ∨ r.status = 421 := by
        by_contra hneither
        exact hpassed (not_or.mp hneither)
      have hbreaks : ∀ (run : Run) (wait : ℚ),
          ¬HonoursFrom id maxRetries attempt (r :: responses) (run.after wait) := by
        intro run wait hhonours
        have hretryable := (honoursFrom_after_iff.mp hhonours).1.2.1
        rw [(not_passed hstatus).2] at hretryable
        cases hretryable
      have hunsuited : ¬JsSuits attempt r := fun hsuits => hpassed hsuits.passed
      by_cases h421 : r.status = 421
      · rw [if_pos ⟨h421, rfl⟩]
        exact iff_of_false (hbreaks _ _) fun hall => hunsuited (hall (.inl h421)).1
      · have h407 := hstatus.resolve_right h421
        rw [if_neg fun hboth => h421 hboth.1, if_pos h407]
        by_cases hlast : attempt = maxRetries
        · rw [if_pos hlast]
          refine iff_of_true (honoursFrom_end _ h) fun hgoes => ?_
          exact absurd hlast (hgoes.resolve_left h421).1
        · rw [if_neg hlast]
          exact iff_of_false (hbreaks _ _) fun hall =>
            hunsuited (hall (.inr ⟨hlast, .inl h407⟩)).1

theorem pyHonours_iff (responses : List Response) (h : attempt ≤ maxRetries) :
    HonoursFrom nanoseconds maxRetries attempt responses (pyOpen maxRetries attempt responses) ↔
      ∀ k r, Retried (fun i => PyGoesOn maxRetries (attempt + i)) responses k r →
        PySuits (attempt + k) r := by
  induction responses generalizing attempt with
  | nil => exact iff_of_true (honoursFrom_end _ h) (forall_retried_nil _)
  | cons r responses ih =>
    rw [forall_retried_cons_iff, pyOpen]
    cases hok : r.ok with
    | true =>
      rw [if_pos rfl]
      refine iff_of_true (honoursFrom_end _ h) fun hgoes => ?_
      have hretryable := hgoes.1
      rw [not_retryable_of_ok hok] at hretryable
      cases hretryable
    | false =>
      rw [if_neg Bool.false_ne_true]
      by_cases hends : (!r.retryable) = true ∨ attempt = maxRetries
      · rw [if_pos hends]
        refine iff_of_true (honoursFrom_end _ h) fun hgoes => ?_
        rcases hends with hfinal | hlast
        · rw [hgoes.1] at hfinal
          cases hfinal
        · exact absurd hlast hgoes.2.1
      · obtain ⟨hretryable, hne⟩ := not_or.mp hends
        rw [Bool.not_eq_true', Bool.not_eq_false] at hretryable
        rw [if_neg hends]
        cases hwait : pyWait attempt (pyError r) with
        | none =>
          refine iff_of_true (honoursFrom_end _ h) fun hgoes => ?_
          have hsome := hgoes.2.2
          rw [hwait] at hsome
          cases hsome
        | some wait =>
          have hgoes : PyGoesOn maxRetries attempt r := ⟨hretryable, hne, by rw [hwait]; rfl⟩
          dsimp only
          rw [honoursFrom_after_iff, ih (by omega), imp_iff_right hgoes, and_iff_right hne,
            and_iff_right hretryable, pyWaited_iff hwait]

end Clients

/-- A client honours `Retry-After` and keeps to the backoff if and only if every response that it
goes on after suits it. JavaScript also goes on after responses that are not to be retried, and
gives up where it cannot make the error; Python gives up where it cannot wait. -/
theorem honours_iff (maxRetries : ℕ) (responses : List Response) :
    (Honours id maxRetries responses (jsRequest maxRetries false 0 responses) ↔
      ∀ k r, Retried (JsGoesOn maxRetries) responses k r → JsSuits k r) ∧
    (Honours nanoseconds maxRetries responses (pyOpen maxRetries 0 responses) ↔
      ∀ k r, Retried (PyGoesOn maxRetries) responses k r → PySuits k r) := by
  rw [honours_iff_honoursFrom, honours_iff_honoursFrom, jsHonours_iff responses (Nat.zero_le _),
    pyHonours_iff responses (Nat.zero_le _)]
  simp only [Nat.zero_add, and_self]

/-! ## An open circuit -/

/-- What the gateway sends when a circuit is open: a 503 that says when it can be tried again. -/
def circuitOpenResponse : Response :=
  ⟨503, some ((CloudMesh.retryAfter 30).2.toList.map Char.toUInt8), none, .other, by decide⟩

/-- Both clients try again after a quarter of a second. -/
theorem honours_fails :
    ¬Honours id 1 [circuitOpenResponse, served]
        (jsRequest 1 false 0 [circuitOpenResponse, served]) ∧
      ¬Honours nanoseconds 1 [circuitOpenResponse, served]
        (pyOpen 1 0 [circuitOpenResponse, served]) := by
  have hasked : decimalSeconds circuitOpenResponse.retryAfter = some 30 := by decide +kernel
  have hjs : (jsRequest 1 false 0 [circuitOpenResponse, served]).waits[0]? = some 250 := by
    decide +kernel
  have hpy : (pyOpen 1 0 [circuitOpenResponse, served]).waits[0]? = some 250 := by
    decide +kernel
  have hshort : nanoseconds 250 = 250 := by decide +kernel
  constructor
  · intro h
    obtain ⟨r, hr, -, hwaited⟩ := h.waited 0 250 hjs
    obtain rfl : circuitOpenResponse = r := Option.some.inj hr
    have hle : (30 : ℚ) * 1000 ≤ 250 := hwaited.asked 30 hasked
    norm_num at hle
  · intro h
    obtain ⟨r, hr, -, hwaited⟩ := h.waited 0 250 hpy
    obtain rfl : circuitOpenResponse = r := Option.some.inj hr
    have hle := hwaited.asked 30 hasked
    rw [hshort] at hle
    norm_num at hle

end Retry

end Sdk

end CloudMesh
