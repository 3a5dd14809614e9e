import Mathlib.Data.Rat.Floor

/-!
# Errors

The error classes of `apps/gateway/src/errors.ts` and `apps/api/src/errors.ts`, with the status,
message, code and headers that the error handler sends, and everything else the modelled code
throws.
-/

namespace CloudMesh

/-- Which class an `AppError` is an instance of, with the fields the subclass adds. -/
inductive ErrorClass
  | unauthorized
  | validation
  | notFound
  | provider (provider : String)
  | rateLimit
  | serviceUnavailable
  | allProvidersUnavailable
  | budgetExceeded
  deriving DecidableEq, Repr

structure AppError where
  cls : ErrorClass
  statusCode : ℕ
  message : String
  code : String
  headers : List (String × String)
  deriving DecidableEq, Repr

/-- `Number.prototype.toFixed(2)`: two decimals, ties away from zero. -/
def toFixed2 (x : ℚ) : String :=
  let n := ⌊|x| * 100 + 1 / 2⌋.toNat
  (if x < 0 then "-" else "") ++ toString (n / 100) ++ "." ++
    (if n % 100 < 10 then "0" else "") ++ toString (n % 100)

/-- The `Retry-After` header: `String(Math.max(1, Math.ceil(s)))`. -/
def retryAfter (retryAfterSeconds : ℚ) : String × String :=
  ("Retry-After", toString (max 1 ⌈retryAfterSeconds⌉))

def unauthorizedError (message : String) : AppError :=
  ⟨.unauthorized, 401, message, "UNAUTHORIZED", []⟩

def validationError (message : String) : AppError :=
  ⟨.validation, 400, message, "VALIDATION_ERROR", []⟩

def notFoundError (message : String) : AppError :=
  ⟨.notFound, 404, message, "NOT_FOUND", []⟩

def providerError (message provider : String) : AppError :=
  ⟨.provider provider, 502, message, "PROVIDER_ERROR", []⟩

def rateLimitError (retryAfterSeconds : ℚ) : AppError :=
  ⟨.rateLimit, 429, "Rate limit exceeded", "RATE_LIMITED", [retryAfter retryAfterSeconds]⟩

def serviceUnavailableError (message : String) (retryAfterSeconds : ℚ) : AppError :=
  ⟨.serviceUnavailable, 503, message, "SERVICE_UNAVAILABLE", [retryAfter retryAfterSeconds]⟩

def allProvidersUnavailableError : AppError :=
  ⟨.allProvidersUnavailable, 503, "All configured providers are currently unavailable",
    "ALL_PROVIDERS_UNAVAILABLE", []⟩

def budgetExceededError (remainingUsd : ℚ) : AppError :=
  ⟨.budgetExceeded, 402, "Monthly budget exceeded (remaining: $" ++ toFixed2 remainingUsd ++ ")",
    "BUDGET_EXCEEDED", []⟩

example : (budgetExceededError (-1 / 8)).message =
    "Monthly budget exceeded (remaining: $-0.13)" := by decide +kernel

/-- `err instanceof ServiceUnavailableError`; `AllProvidersUnavailableError` extends it. -/
def AppError.isServiceUnavailable (err : AppError) : Bool :=
  err.cls = .serviceUnavailable || err.cls = .allProvidersUnavailable

/-- `err instanceof ProviderError`. -/
def AppError.isProvider (err : AppError) : Bool :=
  match err.cls with
  | .provider _ => true
  | _ => false

/-- What the modelled code throws: an `AppError`, the circuit breaker's `CircuitOpenError`, the
billing lock's `LockAcquisitionError`, or any other `Error`. -/
inductive Thrown
  | app (err : AppError)
  | circuitOpen (circuitName : String)
  | lockAcquisition (lockKey : String)
  | error (message : String)
  deriving DecidableEq, Repr

def Thrown.message : Thrown → String
  | .app err => err.message
  | .circuitOpen circuitName => "Circuit breaker is open for \"" ++ circuitName ++ "\""
  | .lockAcquisition lockKey => "Could not acquire lock \"" ++ lockKey ++ "\" after retrying"
  | .error message => message

end CloudMesh
