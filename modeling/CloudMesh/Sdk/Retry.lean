import CloudMesh.Sdk.Bodies
import Mathlib.Tactic.NormNum

/-!
# The retries of the two clients

`CloudMesh.#request` of the JavaScript client and `CloudMesh._open` of the Python one, against a
server that answers the requests with a given sequence of responses. Both retry after 429 and 5xx
and wait for what `Retry-After` says, or else twice as long after each attempt.

They differ in the spellings of `Retry-After` that they read, in what they do with a time that
cannot be waited for, in the codes that they take for missing, and in the messages that they can
make an error of. `fetch` itself rejects a 407 and answers the first 421 by the same request on a
new connection.

## Main definitions

- `jsRequest`, `pyOpen` — the two loops
- `SameRun` — as many requests, the same waits, and the same end
- `Response.Alike` — a response to an attempt that does not tell the two apart
- `sameRun_iff` — the clients behave the same if and only if every response they reach is alike
-/

namespace CloudMesh

namespace Sdk

namespace Retry

/-! ## Responses and errors -/

structure Response where
  status : ℕ
  retryAfter : Option (List UInt8)
  requestId : Option (List UInt8)
  body : Body
  status_range : 200 ≤ status ∧ status < 300 ∨ 400 ≤ status ∧ status < 600

def Response.ok (r : Response) : Bool := 200 ≤ r.status ∧ r.status < 300

def Response.retryable (r : Response) : Bool := r.status = 429 ∨ 500 ≤ r.status

inductive ErrorClass
  | cloudMesh
  | authentication
  | invalidRequest
  | budgetExceeded
  | notFound
  | rateLimit
  | service
  deriving DecidableEq, Repr

/-- The error either client raises. -/
structure ApiError where
  kind : ErrorClass
  message : Tree Numeric
  status : ℕ
  code : Tree Numeric
  retryAfterSeconds : Option Numeric
  requestId : Option (List UInt8)

def failedMessage (status : ℕ) : Tree Numeric :=
  .string (utf16 ("Request failed with status " ++ toString status))

/-- The constructor of every class of errors. `super(message)` throws a `TypeError` for a message
that is no string and cannot be made one. -/
def newError (kind : ErrorClass) (message : Tree Numeric) (status : ℕ) (code : Tree Numeric)
    (retryAfterSeconds : Option Numeric) (requestId : Option (List UInt8)) : Option ApiError :=
  if message.printable then some ⟨kind, message, status, code, retryAfterSeconds, requestId⟩
  else none

def jsErrorFromResponse (status : ℕ) (body : Option (Tree Numeric))
    (retryAfterSeconds : Option Numeric) (requestId : Option (List UInt8)) : Option ApiError :=
  let message := nullish body errorKey (failedMessage status)
  let code := nullish body codeKey (.string unknown)
  match status with
  | 400 => newError .invalidRequest message status code none requestId
  | 401 => newError .authentication message status code none requestId
  | 402 => newError .budgetExceeded message status code none requestId
  | 404 => newError .notFound message status code none requestId
  | 429 => newError .rateLimit message status code retryAfterSeconds requestId
  | _ =>
    if 500 ≤ status then newError .service message status code none requestId
    else newError .cloudMesh message status code none requestId

def pyErrorFromResponse (status : ℕ) (body : Option (Tree Numeric))
    (retryAfterSeconds : Option Numeric) (requestId : Option (List UInt8)) : ApiError :=
  let message := getOr body errorKey (failedMessage status)
  let code := getOr body codeKey (.string unknown)
  if status = 400 then ⟨.invalidRequest, message, status, code, none, requestId⟩
  else if status = 401 then ⟨.authentication, message, status, code, none, requestId⟩
  else if status = 402 then ⟨.budgetExceeded, message, status, code, none, requestId⟩
  else if status = 404 then ⟨.notFound, message, status, code, none, requestId⟩
  else if status = 429 then ⟨.rateLimit, message, status, code, retryAfterSeconds, requestId⟩
  else if 500 ≤ status then ⟨.service, message, status, code, none, requestId⟩
  else ⟨.cloudMesh, message, status, code, none, requestId⟩

/-! ## Retry-After -/

def isFinite : Numeric → Bool
  | .finite _ => true
  | _ => false

/-- `retryAfterHeader ? Number(retryAfterHeader) : undefined`, if it is finite. -/
def jsRetryAfter (header : Option (List UInt8)) : Option Numeric :=
  ((header.filter (· ≠ [])).map fun h => number (latin1 h)).filter isFinite

/-- `float(retry_after) if retry_after else None`, or `None` for a `ValueError`. -/
def pyRetryAfter (header : Option (List UInt8)) : Option Numeric :=
  (header.filter (· ≠ [])).bind fun h => pyFloat (latin1 h)

def jsError (r : Response) : Option ApiError :=
  jsErrorFromResponse r.status r.body.json (jsRetryAfter r.retryAfter) r.requestId

def pyError (r : Response) : ApiError :=
  pyErrorFromResponse r.status (r.body.loads.bind dictOnly) (pyRetryAfter r.retryAfter) r.requestId

/-! ## Waiting

All times are in milliseconds. -/

/-- `setTimeout`, which waits for one millisecond when it cannot wait for what it is given. -/
def timer : Numeric → ℚ
  | .finite x => if 1 ≤ x ∧ x ≤ 2147483647 then x else 1
  | _ => 1

/-- `Math.ceil`. -/
def ceil : Numeric → Numeric
  | .finite x => .finite ⌈x⌉
  | x => x

/-- `Math.ceil(x * 1000)`. -/
def ceilMs : Numeric → Numeric
  | .finite x => ceil (Numeric.ofRat (x * 1000))
  | x => x

/-- `time.sleep(x)`, which raises when it cannot wait. -/
def sleep : Numeric → Option ℚ
  | .finite x => if 0 ≤ x ∧ x * 10 ^ 9 < 2 ^ 63 then some (x * 1000) else none
  | _ => none

/-- `2 ** attempt * 250`. -/
def jsBackoff (attempt : ℕ) : Numeric := .ofRat ((250 * 2 ^ attempt : ℕ) : ℚ)

/-- `2**attempt * 0.25`. -/
def pyBackoff (attempt : ℕ) : Numeric := .finite (2 ^ attempt / 4)

def jsWait (attempt : ℕ) (error : ApiError) : ℚ :=
  match error.kind, error.retryAfterSeconds with
  | .rateLimit, some seconds => timer (ceilMs seconds)
  | _, _ => timer (jsBackoff attempt)

def pyWait (attempt : ℕ) (error : ApiError) : Option ℚ :=
  match error.kind, error.retryAfterSeconds with
  | .rateLimit, some seconds => sleep seconds
  | _, _ => sleep (pyBackoff attempt)

/-! ## The loops -/

inductive Outcome
  | response (r : Response)
  | error (e : ApiError)
  /-- `fetch` has rejected, and no attempt is left. -/
  | connectionError
  /-- `time.sleep` has raised, or `new Error` has thrown. -/
  | raised
  /-- The server has no response left. -/
  | unanswered

structure Run where
  requests : ℕ
  waits : List ℚ
  outcome : Outcome

/-- A run after one more request and a wait. -/
def Run.after (wait : ℚ) (run : Run) : Run := ⟨run.requests + 1, wait :: run.waits, run.outcome⟩

/-- `#request` from an attempt on. `resent` says that `fetch` has already sent the request of the
attempt once more. -/
def jsRequest (maxRetries : ℕ) (resent : Bool) : ℕ → List Response → Run
  | _, [] => ⟨1, [], .unanswered⟩
  | attempt, r :: responses =>
    if r.status = 421 ∧ resent = false then
      (jsRequest maxRetries true attempt responses).after 0
    else if r.status = 407 then
      if attempt = maxRetries then ⟨1, [], .connectionError⟩
      else (jsRequest maxRetries false (attempt + 1) responses).after (timer (jsBackoff attempt))
    else if r.ok then ⟨1, [], .response r⟩
    else
      match jsError r with
      | none => ⟨1, [], .raised⟩
      | some error =>
        if !r.retryable ∨ attempt = maxRetries then ⟨1, [], .error error⟩
        else (jsRequest maxRetries false (attempt + 1) responses).after (jsWait attempt error)

/-- `_open` from an attempt on. -/
def pyOpen (maxRetries : ℕ) : ℕ → List Response → Run
  | _, [] => ⟨1, [], .unanswered⟩
  | attempt, r :: responses =>
    if r.ok then ⟨1, [], .response r⟩
    else if !r.retryable ∨ attempt = maxRetries then ⟨1, [], .error (pyError r)⟩
    else
      match pyWait attempt (pyError r) with
      | some wait => (pyOpen maxRetries (attempt + 1) responses).after wait
      | none => ⟨1, [], .raised⟩

/-! ## Sameness -/

/-- Two times up to a whole millisecond. -/
def Near (a b : ℚ) : Prop := |a - b| ≤ 1

structure SameError (e f : ApiError) : Prop where
  kind : e.kind = f.kind
  status : e.status = f.status
  code : e.code = f.code
  retryAfterSeconds : e.retryAfterSeconds = f.retryAfterSeconds

def SameOutcome : Outcome → Outcome → Prop
  | .response r, .response s => r = s
  | .error e, .error f => SameError e f
  | .unanswered, .unanswered => True
  | _, _ => False

structure SameRun (js py : Run) : Prop where
  requests : js.requests = py.requests
  waits : List.Forall₂ Near js.waits py.waits
  outcome : SameOutcome js.outcome py.outcome

/-! ## Headers that do not tell the clients apart -/

/-- Both read a finite number, or neither reads anything. -/
def SecondsAlike (header : Option (List UInt8)) : Prop :=
  ∀ h, header = some h → h ≠ [] →
    match number (latin1 h), pyFloat (latin1 h) with
    | .finite _, some (.finite _) => True
    | .finite _, _ => False
    | _, some _ => False
    | _, none => True

/-- The product with a thousand, rounded up, is a time that `setTimeout` can wait for. -/
def FitsTimer (x : ℚ) : Prop := ∃ y, Numeric.ofRat (x * 1000) = .finite y ∧ ⌈y⌉ ≤ 2147483647

/-- The header of a 429 to an attempt that is retried. A time that both read must be one that both
can wait for. A time that one of them reads must be what the other one waits for anyway. -/
def WaitAlike (attempt : ℕ) (header : Option (List UInt8)) : Prop :=
  match header.filter (· ≠ []) with
  | none => attempt ≤ 23
  | some h =>
    match number (latin1 h), pyFloat (latin1 h) with
    | .finite x, some (.finite _) => 0 ≤ x ∧ FitsTimer x
    | .finite x, none => Near (timer (ceilMs (.finite x))) (250 * 2 ^ attempt)
    | _, some (.finite y) => 0 ≤ y ∧ Near (timer (jsBackoff attempt)) (y * 1000)
    | _, some _ => False
    | _, none => attempt ≤ 23

/-- The header that counts, which is that of a 429. -/
def Response.rateLimitHeader (r : Response) : Option (List UInt8) :=
  if r.status = 429 then r.retryAfter else none

/-- A response that `fetch` passes on, and of which JavaScript can make an error. -/
structure Response.Plain (r : Response) : Prop where
  passed : r.status ≠ 407 ∧ r.status ≠ 421
  printable : r.body.Printable

/-- A response to an attempt that does not tell the clients apart. -/
def Response.Alike (maxRetries attempt : ℕ) (r : Response) : Prop :=
  r.ok = false → r.Plain ∧
    if r.retryable ∧ attempt ≠ maxRetries then
      WaitAlike attempt r.rateLimitHeader
    else r.body.CodeAlike ∧ SecondsAlike r.rateLimitHeader

/-! ## Errors -/

def errorClass (status : ℕ) : ErrorClass :=
  if status = 400 then .invalidRequest
  else if status = 401 then .authentication
  else if status = 402 then .budgetExceeded
  else if status = 404 then .notFound
  else if status = 429 then .rateLimit
  else if 500 ≤ status then .service
  else .cloudMesh

theorem pyErrorFromResponse_eq (status : ℕ) (body : Option (Tree Numeric))
    (seconds : Option Numeric) (requestId : Option (List UInt8)) :
    pyErrorFromResponse status body seconds requestId =
      ⟨errorClass status, getOr body errorKey (failedMessage status), status,
        getOr body codeKey (.string unknown), if status = 429 then seconds else none,
        requestId⟩ := by
  rw [pyErrorFromResponse, errorClass]
  split_ifs with h400 h401 h402 h404 h429 h500 <;> first | rfl | omega

theorem jsErrorFromResponse_eq (status : ℕ) (body : Option (Tree Numeric))
    (seconds : Option Numeric) (requestId : Option (List UInt8)) :
    jsErrorFromResponse status body seconds requestId =
      newError (errorClass status) (nullish body errorKey (failedMessage status)) status
        (nullish body codeKey (.string unknown)) (if status = 429 then seconds else none)
        requestId := by
  rw [jsErrorFromResponse.eq_def]
  dsimp only
  split
  · rfl
  · rfl
  · rfl
  · rfl
  · rfl
  · rename_i h400 h401 h402 h404 h429
    rw [errorClass, if_neg h400, if_neg h401, if_neg h402, if_neg h404, if_neg h429,
      if_neg h429]
    split <;> rfl

/-- JavaScript has an error exactly if it can make a string of the message. -/
theorem jsError_isSome_iff (r : Response) : (jsError r).isSome = true ↔ r.body.Printable := by
  have hmessage : (nullish r.body.json errorKey (failedMessage r.status)).printable = true ↔
      r.body.Printable := printable_nullish_iff r.body _
  rw [jsError, jsErrorFromResponse_eq, newError, ← hmessage, Option.isSome_ite]

theorem jsError_eq {r : Response} {error : ApiError} (h : jsError r = some error) :
    error = ⟨errorClass r.status, nullish r.body.json errorKey (failedMessage r.status), r.status,
      nullish r.body.json codeKey (.string unknown),
      if r.status = 429 then jsRetryAfter r.retryAfter else none, r.requestId⟩ := by
  rw [jsError, jsErrorFromResponse_eq, newError] at h
  exact (Option.some.inj (Option.ite_none_right_eq_some.mp h).2).symm

theorem jsError_retryAfterSeconds {r : Response} {error : ApiError} (h : jsError r = some error) :
    error.retryAfterSeconds = jsRetryAfter r.rateLimitHeader := by
  rw [jsError_eq h, Response.rateLimitHeader]
  dsimp only
  split <;> rfl

theorem pyError_retryAfterSeconds (r : Response) :
    (pyError r).retryAfterSeconds = pyRetryAfter r.rateLimitHeader := by
  rw [pyError, pyErrorFromResponse_eq, Response.rateLimitHeader]
  split <;> rfl

theorem rateLimit_of_header {r : Response} {h : List UInt8} (hr : r.rateLimitHeader = some h) :
    errorClass r.status = .rateLimit := by
  rw [Response.rateLimitHeader] at hr
  split_ifs at hr with h429
  rw [h429]
  rfl

/-! ## Waits -/

/-- What JavaScript waits for after a response. -/
theorem jsWait_eq (attempt : ℕ) {r : Response} {error : ApiError} (he : jsError r = some error) :
    jsWait attempt error =
      (jsRetryAfter r.rateLimitHeader).elim (timer (jsBackoff attempt)) fun seconds =>
        timer (ceilMs seconds) := by
  rw [jsWait, jsError_retryAfterSeconds he]
  cases h : r.rateLimitHeader with
  | none => cases error.kind <;> rfl
  | some header =>
    have hkind : error.kind = .rateLimit := by
      rw [jsError_eq he]
      exact rateLimit_of_header h
    rw [hkind]
    cases jsRetryAfter (some header) <;> rfl

theorem pyWait_eq (attempt : ℕ) (r : Response) :
    pyWait attempt (pyError r) =
      (pyRetryAfter r.rateLimitHeader).elim (sleep (pyBackoff attempt)) sleep := by
  rw [pyWait, pyError_retryAfterSeconds]
  cases h : r.rateLimitHeader with
  | none => cases (pyError r).kind <;> rfl
  | some header =>
    have hkind : (pyError r).kind = .rateLimit := by
      rw [pyError, pyErrorFromResponse_eq]
      exact rateLimit_of_header h
    rw [hkind]
    cases pyRetryAfter (some header) <;> rfl

theorem timer_le (x : Numeric) : timer x ≤ 2147483647 := by
  cases x with
  | finite x =>
    rw [timer]
    split_ifs with h
    · exact h.2
    · norm_num
  | _ => norm_num [timer]

theorem timer_natCast {n : ℕ} (hpos : 0 < n) (hn : n ≤ 2147483647) :
    timer (Numeric.ofRat (n : ℚ)) = n := by
  rw [ofRat_natCast (by omega), timer, if_pos ⟨by exact_mod_cast hpos, by exact_mod_cast hn⟩]

theorem timer_of_lt {n : ℕ} (hn : 2147483647 < n) : timer (Numeric.ofRat (n : ℚ)) = 1 := by
  cases h : Numeric.ofRat (n : ℚ) with
  | finite x =>
    have hx : ((2147483648 : ℕ) : ℚ) ≤ x := le_of_ofRat (by omega) (by exact_mod_cast hn) h
    rw [timer, if_neg]
    rintro ⟨-, hle⟩
    push_cast at hx
    linarith
  | _ => rfl

/-- The backoff of an attempt fits the timer of JavaScript up to the attempt with number 23. -/
theorem timer_jsBackoff (attempt : ℕ) :
    timer (jsBackoff attempt) = if attempt ≤ 23 then 250 * 2 ^ attempt else 1 := by
  rw [jsBackoff]
  split_ifs with h
  · have hle : 2 ^ attempt ≤ 2 ^ 23 := Nat.pow_le_pow_right (by decide) h
    have hpos : 0 < 2 ^ attempt := Nat.two_pow_pos attempt
    rw [timer_natCast (by omega) (by omega)]
    push_cast
    rfl
  · have hle : 2 ^ 24 ≤ 2 ^ attempt := Nat.pow_le_pow_right (by decide) (by omega)
    exact timer_of_lt (by omega)

theorem sleep_eq_some_iff {x : Numeric} {b : ℚ} :
    sleep x = some b ↔ ∃ y, x = .finite y ∧ 0 ≤ y ∧ y * 10 ^ 9 < 2 ^ 63 ∧ y * 1000 = b := by
  cases x with
  | finite y => simp [sleep, and_assoc]
  | _ => simp [sleep]

/-- A time near one that JavaScript waits for is one that Python can wait for. -/
theorem near_sleep_iff {x : Numeric} {y : ℚ} :
    (∃ b, sleep (.finite y) = some b ∧ Near (timer x) b) ↔ 0 ≤ y ∧ Near (timer x) (y * 1000) := by
  simp only [sleep_eq_some_iff, Numeric.finite.injEq]
  constructor
  · rintro ⟨b, ⟨y, rfl, hy, -, rfl⟩, hnear⟩
    exact ⟨hy, hnear⟩
  · rintro ⟨hy, hnear⟩
    refine ⟨_, ⟨y, rfl, hy, ?_, rfl⟩, hnear⟩
    have hle := timer_le x
    have habs := (abs_le.mp hnear).1
    norm_num
    linarith

theorem near_backoff_iff {attempt : ℕ} {x : Numeric} :
    (∃ b, sleep (pyBackoff attempt) = some b ∧ Near (timer x) b) ↔
      Near (timer x) (250 * 2 ^ attempt) := by
  rw [pyBackoff, near_sleep_iff, show (2 ^ attempt / 4 * 1000 : ℚ) = 250 * 2 ^ attempt by ring]
  exact and_iff_right (by positivity)

/-- Without a header both wait for the backoff, for as long as JavaScript can. -/
theorem near_backoffs_iff (attempt : ℕ) :
    (∃ b, sleep (pyBackoff attempt) = some b ∧ Near (timer (jsBackoff attempt)) b) ↔
      attempt ≤ 23 := by
  rw [near_backoff_iff, timer_jsBackoff, Near]
  split_ifs with h
  · simp [h]
  · have hle : (2 : ℚ) ^ 24 ≤ 2 ^ attempt := pow_le_pow_right₀ one_le_two (by omega)
    refine iff_of_false (fun hnear => ?_) h
    have habs := (abs_le.mp hnear).1
    linarith

theorem ceilMs_of_ofRat {x y : ℚ} (h : Numeric.ofRat (x * 1000) = .finite y) :
    ceilMs (.finite x) = .finite ⌈y⌉ := by
  rw [ceilMs, h, ceil]

/-- A time that does not fit is too long, and JavaScript does not wait for it. -/
theorem timer_of_not_fits {x : ℚ} (h : ¬FitsTimer x) : timer (ceilMs (.finite x)) = 1 := by
  rw [FitsTimer] at h
  rw [ceilMs]
  generalize Numeric.ofRat (x * 1000) = z at h ⊢
  cases z with
  | finite y =>
    rw [ceil, timer, if_neg]
    rintro ⟨-, hle⟩
    exact h ⟨y, rfl, by exact_mod_cast hle⟩
  | _ => rfl

theorem fitsTimer_of_le {x : ℚ} (hx : 0 ≤ x) (hle : x * 1000 ≤ 2147483647) : FitsTimer x := by
  obtain ⟨y, hy, -, hyle⟩ := ofRat_le (n := 2147483647) (y := x * 1000) (by decide)
    (by positivity) (by exact_mod_cast hle)
  exact ⟨y, hy, Int.ceil_le.mpr (by exact_mod_cast hyle)⟩

/-- Rounding and `Math.ceil` together move a time by less than a millisecond. -/
theorem near_ceil {x y : ℚ} (hx : 0 ≤ x) (hy : Numeric.ofRat (x * 1000) = .finite y)
    (hfits : ⌈y⌉ ≤ 2147483647) : x * 1000 < ⌈y⌉ + 1 ∧ (⌈y⌉ : ℚ) < x * 1000 + 1 := by
  have hpos : 0 ≤ x * 1000 := by positivity
  have hyceil := Int.le_ceil y
  have hfits : (⌈y⌉ : ℚ) ≤ 2147483647 := by exact_mod_cast hfits
  have hlt : x * 1000 < 2 ^ 52 := by
    by_contra hge
    have hbig : ((2 ^ 52 : ℕ) : ℚ) ≤ y :=
      le_of_ofRat (by decide) (by push_cast; exact not_lt.mp hge) hy
    push_cast at hbig
    linarith
  constructor
  · have hfloor : (⌊x * 1000⌋₊ : ℚ) ≤ x * 1000 := Nat.floor_le hpos
    have hsmall : ⌊x * 1000⌋₊ < 2 ^ 53 := by
      rw [Nat.floor_lt hpos]
      push_cast
      linarith
    have hle := le_of_ofRat hsmall hfloor hy
    have hnext := Nat.lt_floor_add_one (x * 1000)
    linarith
  · have hsmall : ⌈x * 1000⌉₊ < 2 ^ 53 := by
      have hle : ⌈x * 1000⌉₊ ≤ 2 ^ 52 := Nat.ceil_le.mpr (by push_cast; exact hlt.le)
      omega
    obtain ⟨z, hz, -, hle⟩ := ofRat_le hsmall hpos (Nat.le_ceil _)
    obtain rfl : y = z := Numeric.finite.inj (hy.symm.trans hz)
    have hceil : ⌈y⌉ ≤ ⌈x * 1000⌉₊ := Int.ceil_le.mpr (by exact_mod_cast hle)
    have hnext := Nat.ceil_lt_add_one hpos
    have hcast : (⌈y⌉ : ℚ) ≤ (⌈x * 1000⌉₊ : ℚ) := by exact_mod_cast hceil
    linarith

/-- What both read, both wait for, if both can. -/
theorem near_seconds_iff (x : ℚ) :
    (∃ b, sleep (.finite x) = some b ∧ Near (timer (ceilMs (.finite x))) b) ↔
      0 ≤ x ∧ FitsTimer x := by
  rw [near_sleep_iff]
  refine and_congr_right fun hx => ?_
  constructor
  · intro hnear
    by_contra hfits
    rw [timer_of_not_fits hfits] at hnear
    have habs := (abs_le.mp hnear).1
    exact hfits (fitsTimer_of_le hx (by linarith))
  · rintro ⟨y, hy, hfits⟩
    obtain ⟨hlower, hupper⟩ := near_ceil hx hy hfits
    rw [ceilMs_of_ofRat hy, timer, Near, abs_le]
    split_ifs with hone
    · constructor <;> linarith
    · -- The time is below a millisecond, and the timer waits for one.
      have hzero : ⌈y⌉ ≤ 0 := by
        by_contra hlt
        exact hone ⟨by exact_mod_cast (by omega : 1 ≤ ⌈y⌉), by exact_mod_cast hfits⟩
      have hcast : (⌈y⌉ : ℚ) ≤ 0 := by exact_mod_cast hzero
      constructor <;> linarith

/-- What the clients wait for is the same exactly when the header does not tell them apart. -/
theorem near_waits_iff (attempt : ℕ) {r : Response} {error : ApiError}
    (he : jsError r = some error) :
    (∃ b, pyWait attempt (pyError r) = some b ∧ Near (jsWait attempt error) b) ↔
      WaitAlike attempt r.rateLimitHeader := by
  rw [jsWait_eq attempt he, pyWait_eq, jsRetryAfter, pyRetryAfter, WaitAlike]
  cases r.rateLimitHeader.filter (· ≠ []) with
  | none => exact near_backoffs_iff attempt
  | some h =>
    dsimp only [Option.map_some, Option.bind_some]
    have hboth := fun x y => @eq_of_number_of_pyFloat h x y
    cases hjs : number (latin1 h) with
    | finite x =>
      show (∃ b, Option.elim _ _ _ = some b ∧ Near (timer (ceilMs (.finite x))) b) ↔ _
      cases hpy : pyFloat (latin1 h) with
      | none => exact near_backoff_iff
      | some z =>
        cases z with
        | finite y =>
          obtain rfl := hboth x y hjs hpy
          exact near_seconds_iff x
        | _ => simp [sleep]
    | _ =>
      show (∃ b, Option.elim _ _ _ = some b ∧ Near (timer (jsBackoff attempt)) b) ↔ _
      cases hpy : pyFloat (latin1 h) with
      | none => exact near_backoffs_iff attempt
      | some z =>
        cases z with
        | finite y => exact near_sleep_iff
        | _ => simp [sleep]

/-! ## Runs -/

theorem seconds_eq_iff (header : Option (List UInt8)) :
    jsRetryAfter header = pyRetryAfter header ↔ SecondsAlike header := by
  cases header with
  | none => exact iff_of_true rfl fun h hh => by cases hh
  | some h =>
    by_cases hnil : h = []
    · subst hnil
      exact iff_of_true rfl fun h hh hne => absurd (Option.some.inj hh).symm hne
    · have hfilter : (some h).filter (· ≠ []) = some h := by simp [Option.filter, hnil]
      rw [jsRetryAfter, pyRetryAfter, hfilter, SecondsAlike]
      simp only [Option.some.injEq, forall_eq', ne_eq, hnil, not_false_eq_true, forall_const,
        Option.map_some, Option.bind_some]
      have hboth := fun x y => @eq_of_number_of_pyFloat h x y
      cases hjs : number (latin1 h) with
      | finite x =>
        show some (Numeric.finite x) = _ ↔ _
        cases hpy : pyFloat (latin1 h) with
        | none => simp
        | some z =>
          cases z with
          | finite y =>
            obtain rfl := hboth x y hjs hpy
            exact iff_of_true rfl trivial
          | _ => simp
      | _ =>
        show none = _ ↔ _
        cases pyFloat (latin1 h) with
        | none => simp
        | some z => cases z <;> simp

/-- What the clients report is the same exactly when the body and the header do not tell them
apart. -/
theorem sameError_iff {r : Response} {error : ApiError} (he : jsError r = some error) :
    SameError error (pyError r) ↔ r.body.CodeAlike ∧ SecondsAlike r.rateLimitHeader := by
  rw [← code_eq_code_iff, ← seconds_eq_iff, ← jsError_retryAfterSeconds he,
    ← pyError_retryAfterSeconds]
  constructor
  · intro h
    refine ⟨?_, h.retryAfterSeconds⟩
    have hcode := h.code
    rwa [jsError_eq he, pyError, pyErrorFromResponse_eq] at hcode
  · rintro ⟨hcode, hseconds⟩
    refine ⟨?_, ?_, ?_, hseconds⟩
    · rw [jsError_eq he, pyError, pyErrorFromResponse_eq]
    · rw [jsError_eq he, pyError, pyErrorFromResponse_eq]
    · rwa [jsError_eq he, pyError, pyErrorFromResponse_eq]

theorem requests_pos (maxRetries attempt : ℕ) (resent : Bool) (responses : List Response) :
    0 < (jsRequest maxRetries resent attempt responses).requests := by
  cases responses with
  | nil => exact Nat.one_pos
  | cons r responses =>
    rw [jsRequest.eq_def]
    dsimp only
    cases jsError r <;> dsimp only <;> split_ifs <;>
      first | exact Nat.one_pos | exact Nat.succ_pos _

/-- Two runs that go on are the same when the waits are and the rests are. -/
theorem sameRun_after_iff {a : ℚ} {wait : Option ℚ} {js py : Run} (hpos : 0 < js.requests) :
    SameRun (js.after a) (match wait with
      | some b => py.after b
      | none => ⟨1, [], .raised⟩) ↔
      (∃ b, wait = some b ∧ Near a b) ∧ SameRun js py := by
  cases wait with
  | none =>
    refine iff_of_false (fun h => ?_) (by simp)
    have hrequests : js.requests + 1 = 1 := h.requests
    omega
  | some b =>
    constructor
    · intro h
      obtain ⟨hnear, hwaits⟩ := List.forall₂_cons.mp h.waits
      exact ⟨⟨b, rfl, hnear⟩, ⟨Nat.succ.inj h.requests, hwaits, h.outcome⟩⟩
    · rintro ⟨⟨b', hb, hnear⟩, h⟩
      obtain rfl := Option.some.inj hb
      exact ⟨congrArg Nat.succ h.requests, .cons hnear h.waits, h.outcome⟩

/-- Every response that is reached is alike. -/
def ReachedAlike (maxRetries attempt : ℕ) (responses : List Response) : Prop :=
  ∀ n r, responses[n]? = some r → attempt + n ≤ maxRetries →
    (∀ earlier ∈ responses.take n, earlier.retryable = true) → r.Alike maxRetries (attempt + n)

theorem reachedAlike_cons_iff {maxRetries attempt : ℕ} {r : Response} {responses : List Response}
    (h : attempt ≤ maxRetries) :
    ReachedAlike maxRetries attempt (r :: responses) ↔
      r.Alike maxRetries attempt ∧
        (r.retryable = true → attempt ≠ maxRetries →
          ReachedAlike maxRetries (attempt + 1) responses) := by
  constructor
  · intro hall
    refine ⟨hall 0 r rfl h fun earlier he => by simp at he, ?_⟩
    intro hretry hne n r' hr' hle hearlier
    have hnext := hall (n + 1) r' hr' (by omega) (by
      intro earlier he
      rw [List.take_succ_cons, List.mem_cons] at he
      rcases he with rfl | he
      · exact hretry
      · exact hearlier earlier he)
    rwa [show attempt + 1 + n = attempt + (n + 1) by omega]
  · rintro ⟨hfirst, hrest⟩ n r' hr' hle hearlier
    cases n with
    | zero =>
      obtain rfl : r = r' := Option.some.inj hr'
      exact hfirst
    | succ n =>
      rw [List.take_succ_cons] at hearlier
      have hretry := hearlier r List.mem_cons_self
      have hnext := hrest hretry (by omega) n r' hr' (by omega) fun earlier he =>
        hearlier earlier (List.mem_cons_of_mem r he)
      rwa [show attempt + 1 + n = attempt + (n + 1) by omega] at hnext

theorem not_retryable_of_ok {r : Response} (h : r.ok = true) : r.retryable = false := by
  rw [Response.ok, decide_eq_true_eq] at h
  rw [Response.retryable, decide_eq_false_iff_not]
  omega

/-- What `fetch` does not pass on is none of what ends or prolongs a run of Python. -/
theorem not_passed {r : Response} (h : r.status = 407 ∨ r.status = 421) :
    r.ok = false ∧ r.retryable = false := by
  rw [Response.ok, Response.retryable, decide_eq_false_iff_not, decide_eq_false_iff_not]
  omega

theorem pyOpen_not_passed {maxRetries attempt : ℕ} {r : Response} {responses : List Response}
    (h : r.status = 407 ∨ r.status = 421) :
    pyOpen maxRetries attempt (r :: responses) = ⟨1, [], .error (pyError r)⟩ := by
  obtain ⟨hok, hretryable⟩ := not_passed h
  rw [pyOpen, hok, hretryable, if_neg Bool.false_ne_true]
  exact if_pos (Or.inl rfl)

/-- What `fetch` does not pass on tells the clients apart. -/
theorem not_sameRun_of_not_passed {maxRetries attempt : ℕ} {r : Response}
    {responses : List Response} (h : r.status = 407 ∨ r.status = 421) :
    ¬SameRun (jsRequest maxRetries false attempt (r :: responses))
      (pyOpen maxRetries attempt (r :: responses)) := by
  rw [pyOpen_not_passed h, jsRequest]
  intro hsame
  by_cases h421 : r.status = 421
  · rw [if_pos ⟨h421, rfl⟩] at hsame
    have hmore := requests_pos maxRetries attempt true responses
    have hrequests := Nat.succ.inj hsame.requests
    omega
  · rw [if_neg fun hboth => h421 hboth.1, if_pos (h.resolve_right h421)] at hsame
    split_ifs at hsame
    · exact hsame.outcome
    · have hmore := requests_pos maxRetries (attempt + 1) false responses
      have hrequests := Nat.succ.inj hsame.requests
      omega

theorem sameRun_iff_of_le {maxRetries attempt : ℕ} (responses : List Response)
    (h : attempt ≤ maxRetries) :
    SameRun (jsRequest maxRetries false attempt responses) (pyOpen maxRetries attempt responses) ↔
      ReachedAlike maxRetries attempt responses := by
  induction responses generalizing attempt with
  | nil =>
    exact iff_of_true ⟨rfl, .nil, trivial⟩ fun n r hr => by simp at hr
  | cons r responses ih =>
    rw [reachedAlike_cons_iff h]
    by_cases hpassed : r.status ≠ 407 ∧ r.status ≠ 421
    · rw [jsRequest, pyOpen, if_neg fun hboth => hpassed.2 hboth.1, if_neg hpassed.1]
      cases hok : r.ok with
      | true =>
        refine iff_of_true ⟨rfl, .nil, rfl⟩ ⟨fun hf => ?_, fun hretry => ?_⟩
        · rw [hok] at hf
          cases hf
        · rw [not_retryable_of_ok hok] at hretry
          cases hretry
      | false =>
        rw [if_neg Bool.false_ne_true, if_neg Bool.false_ne_true]
        cases he : jsError r with
        | none =>
          have hunprintable : ¬r.body.Printable := by
            rw [← jsError_isSome_iff, he]
            exact Bool.false_ne_true
          exact iff_of_false (fun hsame => hsame.outcome)
            fun halike => hunprintable (halike.1 hok).1.printable
        | some error =>
          have hplain : r.Plain := ⟨hpassed, by rw [← jsError_isSome_iff, he]; rfl⟩
          dsimp only
          by_cases hgoes : r.retryable = true ∧ attempt ≠ maxRetries
          · have hnot : ¬((!r.retryable) = true ∨ attempt = maxRetries) := by
              rw [hgoes.1]
              simpa using hgoes.2
            rw [if_neg hnot, if_neg hnot, sameRun_after_iff (requests_pos _ _ _ _),
              near_waits_iff attempt he, ih (by omega), Response.Alike, if_pos hgoes]
            simp [hok, hgoes, hplain]
          · have hends : (!r.retryable) = true ∨ attempt = maxRetries := by
              by_contra hnot
              apply hgoes
              simpa [not_or] using hnot
            rw [if_pos hends, if_pos hends, Response.Alike, if_neg hgoes]
            have hsame : SameRun ⟨1, [], .error error⟩ ⟨1, [], .error (pyError r)⟩ ↔
                SameError error (pyError r) :=
              ⟨fun h => h.outcome, fun h => ⟨rfl, .nil, h⟩⟩
            rw [hsame, sameError_iff he]
            constructor
            · intro halike
              exact ⟨fun _ => ⟨hplain, halike⟩, fun hretry hne => absurd ⟨hretry, hne⟩ hgoes⟩
            · rintro ⟨halike, -⟩
              exact (halike hok).2
    · have hstatus : r.status = 407 ∨ r.status = 421 := by
        by_contra hneither
        exact hpassed (not_or.mp hneither)
      exact iff_of_false (not_sameRun_of_not_passed hstatus)
        fun halike => hpassed (halike.1 (not_passed hstatus).1).1.passed

/-- The clients do the same with a sequence of responses if and only if each of them that follows
no more failures than are retried is alike. -/
theorem sameRun_iff (maxRetries : ℕ) (responses : List Response) :
    SameRun (jsRequest maxRetries false 0 responses) (pyOpen maxRetries 0 responses) ↔
      ∀ n r, responses[n]? = some r → n ≤ maxRetries →
        (∀ earlier ∈ responses.take n, earlier.retryable = true) → r.Alike maxRetries n := by
  rw [sameRun_iff_of_le responses (Nat.zero_le maxRetries), ReachedAlike]
  simp only [Nat.zero_add]

/-! ## A wait that Python cannot make -/

/-- A 429 that says `Retry-After: nan`. -/
def rateLimitedForNan : Response :=
  ⟨429, some ("nan".toList.map Char.toUInt8), none, .other, by decide⟩

def served : Response := ⟨200, none, none, .other, by decide⟩

/-- JavaScript takes no time from the header and retries, `float` does and `time.sleep` raises. -/
theorem sameRun_fails :
    ¬∀ (maxRetries : ℕ) (responses : List Response),
      SameRun (jsRequest maxRetries false 0 responses) (pyOpen maxRetries 0 responses) := by
  intro h
  have hjs : (jsRequest 1 false 0 [rateLimitedForNan, served]).requests = 2 := rfl
  have hpy : (pyOpen 1 0 [rateLimitedForNan, served]).requests = 1 := rfl
  have hsame := (h 1 [rateLimitedForNan, served]).requests
  omega

end Retry

end Sdk

end CloudMesh
