import CloudMesh.Webhooks.Worker

/-!
# The schedule of the retries

The job of a delivery as the queue runs it, one attempt after the other, with what it waits in
between: a job whose `k`-th run throws is run again `backoffStrategy(k)` ms later if `k` is less
than its number of attempts. The strategy takes `k` to be 0 at the first retry, so the first entry
of the schedule is never waited for.

## Main definitions

- `makeBackoffStrategy` — the delay before a retry
- `job` — the attempts of one series, none of whose writes fails
- `Followed` — the attempts, the delays and the row are what the schedule says
- `series_run_of_job` — a job is one run of the worker beside its listeners
-/

namespace CloudMesh.Webhooks.Worker

open Concurrent

variable {Ms : Type}

/-- The last entry is `undefined` if there is none. -/
def makeBackoffStrategy (schedule : List Ms) (attemptsMade : ℕ) : Option Ms :=
  schedule[attemptsMade]?.or schedule.getLast?

/-- The `failed` listener, where `WEBHOOK_MAX_ATTEMPTS` is `maxAttempts`. -/
def onFailedAt (maxAttempts attemptsMade : ℕ) (message : String) : Prog Unit :=
  if attemptsMade ≥ maxAttempts then
    tryCatch (recordDeliveryAttempt attemptsMade ⟨.retry, none, none, some message⟩ true)
      fun _ => pure ()
  else pure ()

theorem onFailedAt_webhookMaxAttempts : onFailedAt webhookMaxAttempts = onFailed := rfl

/-! ## One attempt -/

/-- What an attempt meets: the check of its target, what comes of its request, and the times of its
writes. -/
structure Attempt where
  ssrf : SsrfCheckResult
  sent : DeliveryAttemptResult
  now : ℤ
  failedAt : ℤ

namespace Attempt

def result (a : Attempt) : DeliveryAttemptResult :=
  if a.ssrf.safe then a.sent
  else ⟨.rejected, none, none, some ("blocked by SSRF guard: " ++ a.ssrf.reason.getD "undefined")⟩

def outcome (a : Attempt) : DeliveryOutcome := a.result.outcome

/-- No write fails. -/
def answer (a : Attempt) (time : ℤ) : Cmd → Answer
  | .dateNow => .now time
  | .checkTarget _ => .checked a.ssrf
  | .sendAndClassify => .sent a.sent
  | .updateDelivery _ => .written

end Attempt

/-- A program to its end. -/
def conduct (answer : Cmd → Answer) :
    Run → WebhookDelivery → Option (Except String Unit × WebhookDelivery)
  | .done r, row => some (r, row)
  | .issue c k, row => (exec c (answer c) row).bind fun (r, row) => conduct answer (k r) row

/-! ## The job -/

/-- When the queue runs the job again. -/
inductive Due (Ms : Type)
  | atOnce
  | after (delay : Option Ms)
  | never
  deriving DecidableEq

/-- The counter of the queue, what it has waited before each retry, and the row. -/
structure Job (Ms : Type) where
  attemptsMade : ℕ
  due : Due Ms
  waits : List (Option Ms)
  row : WebhookDelivery
  deriving DecidableEq

def Job.init : Job Ms := ⟨0, .atOnce, [], Series.init.row⟩

/-- The processor runs, and the listener if it has thrown. -/
def Job.attempt (url : String) (schedule : List Ms) (maxAttempts : ℕ) (a : Attempt) (s : Job Ms) :
    Option (Job Ms) := do
  let (r, row) ← conduct (a.answer a.now) (processor url s.attemptsMade).run s.row
  match r with
  | .ok () => some { s with due := .never, row := row }
  | .error message =>
    -- the queue counts the attempt before it calls the listener
    let k := s.attemptsMade + 1
    let (_, row) ← conduct (a.answer a.failedAt) (onFailedAt maxAttempts k message).run row
    some { s with
      attemptsMade := k
      due := if k < maxAttempts then .after (makeBackoffStrategy schedule k) else .never
      row := row }

/-- A label is an attempt, with the wait before it. -/
def job (url : String) (schedule : List Ms) (maxAttempts : ℕ) : Machine (Job Ms) Attempt where
  step s a :=
    match s.due with
    | .never => none
    | .atOnce => s.attempt url schedule maxAttempts a
    | .after delay => { s with waits := s.waits ++ [delay] }.attempt url schedule maxAttempts a

/-- The first attempts of a series. -/
def first (attempts : ℕ → Attempt) (m : ℕ) : List Attempt := (List.range m).map attempts

/-- What the row says after an attempt, which was the `m`-th of at most `maxAttempts`. -/
structure Recorded (maxAttempts m : ℕ) (outcome : DeliveryOutcome) (s : Job Ms) : Prop where
  attempts : s.row.attempts = m
  pending : s.row.status = .pending ↔ s.due ≠ .never
  delivered : s.row.status = .delivered ↔ outcome = .delivered
  failed : s.row.status = .failed ↔ outcome = .rejected
  exhausted : s.row.status = .exhausted ↔ outcome = .retry ∧ m = maxAttempts

/-- The attempts end with the first one that is not to be retried, or when every entry of the
schedule has been waited for, each once and in order; and the row says so. -/
structure Followed (url : String) (schedule : List Ms) (attempts : ℕ → Attempt) : Prop where
  made : ∀ m,
    ((job url schedule (schedule.length + 1)).run .init (first attempts m)).isSome = true ↔
      m ≤ schedule.length + 1 ∧ ∀ i, i + 1 < m → (attempts i).outcome = .retry
  waited : ∀ m s, (job url schedule (schedule.length + 1)).run .init (first attempts m) = some s →
    s.waits = (schedule.take (m - 1)).map some
  recorded : ∀ m s,
    (job url schedule (schedule.length + 1)).run .init (first attempts (m + 1)) = some s →
    Recorded (schedule.length + 1) (m + 1) (attempts m).outcome s

/-! ## What an attempt does -/

section Attempts

variable {url : String} {schedule : List Ms} {maxAttempts : ℕ} {a : Attempt} {n : ℕ}

/-- What the processor writes. -/
def Attempt.data (a : Attempt) (n : ℕ) : DeliveryData :=
  ⟨statusOf a.outcome (a.outcome ≠ .retry), n + 1, a.result.responseStatus, a.result.responseBody,
    a.now⟩

theorem conduct_processor (row : WebhookDelivery) :
    conduct (a.answer a.now) (processor url n).run row =
      some (if a.outcome = .retry then
        .error (a.result.errorMessage.getD "delivery failed, retrying") else .ok (),
        row.update (a.data n)) := by
  obtain ⟨⟨safe, reason⟩, ⟨outcome, status, body, message⟩, now, failedAt⟩ := a
  cases safe with
  | false => rfl
  | true => cases outcome <;> rfl

theorem conduct_onFailedAt (message : String) (row : WebhookDelivery) :
    conduct (a.answer a.failedAt) (onFailedAt maxAttempts n message).run row =
      some (.ok (), if n ≥ maxAttempts then
        row.update ⟨.exhausted, n, none, none, a.failedAt⟩ else row) := by
  unfold onFailedAt
  split <;> rfl

theorem attempt_of_retry {s : Job Ms} (h : a.outcome = .retry) :
    s.attempt url schedule maxAttempts a = some { s with
      attemptsMade := s.attemptsMade + 1
      due := if s.attemptsMade + 1 < maxAttempts then
        .after (makeBackoffStrategy schedule (s.attemptsMade + 1)) else .never
      row := if s.attemptsMade + 1 ≥ maxAttempts then
        (s.row.update (a.data s.attemptsMade)).update
          ⟨.exhausted, s.attemptsMade + 1, none, none, a.failedAt⟩
        else s.row.update (a.data s.attemptsMade) } := by
  simp only [Job.attempt, conduct_processor, h, if_true, conduct_onFailedAt, Option.bind_eq_bind,
    Option.bind_some]

theorem attempt_of_ne {s : Job Ms} (h : a.outcome ≠ .retry) :
    s.attempt url schedule maxAttempts a =
      some { s with due := .never, row := s.row.update (a.data s.attemptsMade) } := by
  simp only [Job.attempt, conduct_processor, h, if_false, Option.bind_eq_bind, Option.bind_some]

theorem recorded_of_attempt {s t : Job Ms} {m : ℕ} (hm : s.attemptsMade = m) (hle : m < maxAttempts)
    (h : s.attempt url schedule maxAttempts a = some t) :
    Recorded maxAttempts (m + 1) a.outcome t := by
  subst hm
  by_cases hretry : a.outcome = .retry
  · rw [attempt_of_retry hretry] at h
    cases h
    by_cases hlt : s.attemptsMade + 1 < maxAttempts
    · have hne : s.attemptsMade + 1 ≠ maxAttempts := hlt.ne
      constructor <;> simp [hlt, not_le.mpr hlt, hne, WebhookDelivery.update, Attempt.data, hretry,
        statusOf]
    · have heq : s.attemptsMade + 1 = maxAttempts := by omega
      constructor <;> simp [heq, WebhookDelivery.update, hretry]
  · rw [attempt_of_ne hretry] at h
    cases h
    cases houtcome : a.outcome with
    | delivered | rejected =>
      constructor <;> simp [WebhookDelivery.update, Attempt.data, houtcome, statusOf]
    | retry => exact absurd houtcome hretry

end Attempts

/-! ## Where the job stands -/

section Runs

variable {url : String} {schedule : List Ms} {maxAttempts m : ℕ} {attempts : ℕ → Attempt}
  {s t : Job Ms}

/-- What has been waited before the retries, with `m` attempts made. -/
def delays (schedule : List Ms) (m : ℕ) : List (Option Ms) :=
  (List.range (m - 1)).map fun i => makeBackoffStrategy schedule (i + 1)

/-- The job after `m` attempts: it has not begun, or it is to be run again, or it has ended with the
last of them. -/
inductive Stands (schedule : List Ms) (maxAttempts : ℕ) (attempts : ℕ → Attempt) :
    ℕ → Job Ms → Prop
  | fresh : Stands schedule maxAttempts attempts 0 .init
  | due {m : ℕ} {s : Job Ms} (hpos : 0 < m) (hlt : m < maxAttempts)
      (hretried : ∀ i < m, (attempts i).outcome = .retry) (hmade : s.attemptsMade = m)
      (hdue : s.due = .after (makeBackoffStrategy schedule m))
      (hwaits : s.waits = delays schedule m) :
      Stands schedule maxAttempts attempts m s
  | ended {m : ℕ} {s : Job Ms} (hlt : m < maxAttempts)
      (hretried : ∀ i < m, (attempts i).outcome = .retry)
      (hlast : (attempts m).outcome ≠ .retry ∨ m + 1 = maxAttempts) (hdue : s.due = .never)
      (hwaits : s.waits = delays schedule (m + 1)) :
      Stands schedule maxAttempts attempts (m + 1) s

theorem delays_succ (hpos : 0 < m) :
    delays schedule (m + 1) = delays schedule m ++ [makeBackoffStrategy schedule m] := by
  obtain ⟨k, rfl⟩ : ∃ k, m = k + 1 := ⟨m - 1, by omega⟩
  simp [delays, List.range_succ]

theorem stands_attempt (hlt : m < maxAttempts)
    (hretried : ∀ i < m, (attempts i).outcome = .retry) (hmade : s.attemptsMade = m)
    (hwaits : s.waits = delays schedule (m + 1)) :
    ∃ t, s.attempt url schedule maxAttempts (attempts m) = some t ∧
      Stands schedule maxAttempts attempts (m + 1) t := by
  by_cases hretry : (attempts m).outcome = .retry
  · refine ⟨_, attempt_of_retry hretry, ?_⟩
    by_cases hnext : m + 1 < maxAttempts
    · refine .due (Nat.succ_pos m) hnext (fun i hi => ?_) ?_ ?_ hwaits
      · rcases Nat.lt_succ_iff_lt_or_eq.mp hi with hi | rfl
        · exact hretried i hi
        · exact hretry
      · exact congrArg (· + 1) hmade
      · show (if s.attemptsMade + 1 < maxAttempts then _ else _) = _
        rw [hmade, if_pos hnext]
    · refine .ended hlt hretried (.inr (by omega)) ?_ hwaits
      show (if s.attemptsMade + 1 < maxAttempts then _ else _) = _
      rw [hmade, if_neg hnext]
  · exact ⟨_, attempt_of_ne hretry, .ended hlt hretried (.inl hretry) rfl hwaits⟩

/-- The job can go on unless it has ended. -/
theorem stands_step (url : String) (hpos : 0 < maxAttempts)
    (h : Stands schedule maxAttempts attempts m s) :
    s.due = .never ∨ ∃ t, (job url schedule maxAttempts).step s (attempts m) = some t ∧
      Stands schedule maxAttempts attempts (m + 1) t ∧
      Recorded maxAttempts (m + 1) (attempts m).outcome t := by
  cases h with
  | fresh =>
    obtain ⟨t, ht, hstands⟩ : ∃ t,
        Job.init.attempt url schedule maxAttempts (attempts 0) = some t ∧
          Stands schedule maxAttempts attempts 1 t :=
      stands_attempt hpos (by simp) rfl rfl
    exact .inr ⟨t, ht, hstands, recorded_of_attempt rfl hpos ht⟩
  | due hm hlt hretried hmade hdue hwaits =>
    set waiting : Job Ms := { s with waits := s.waits ++ [makeBackoffStrategy schedule m] }
    have hwaited : waiting.waits = delays schedule (m + 1) :=
      (congrArg (· ++ [_]) hwaits).trans (delays_succ hm).symm
    obtain ⟨t, ht, hstands⟩ : ∃ t, waiting.attempt url schedule maxAttempts (attempts m) = some t ∧
        Stands schedule maxAttempts attempts (m + 1) t :=
      stands_attempt hlt hretried hmade hwaited
    have hrecorded := recorded_of_attempt (s := waiting) hmade hlt ht
    have hstep : (job url schedule maxAttempts).step s (attempts m) =
        waiting.attempt url schedule maxAttempts (attempts m) := by
      simp only [job, hdue, waiting]
    exact .inr ⟨t, hstep.trans ht, hstands, hrecorded⟩
  | ended _ _ _ hdue _ => exact .inl hdue

theorem first_succ (attempts : ℕ → Attempt) (m : ℕ) :
    first attempts (m + 1) = first attempts m ++ [attempts m] := by
  simp [first, List.range_succ]

theorem step_of_never (h : s.due = .never) (a : Attempt) :
    (job url schedule maxAttempts).step s a = none := by
  simp only [job, h]

theorem stands_run (hpos : 0 < maxAttempts)
    (h : (job url schedule maxAttempts).run .init (first attempts m) = some s) :
    Stands schedule maxAttempts attempts m s := by
  induction m generalizing s with
  | zero =>
    cases h
    exact .fresh
  | succ m ih =>
    rw [first_succ, Machine.run_concat] at h
    obtain ⟨t, hrun, hstep⟩ := h
    rcases stands_step url hpos (ih hrun) with hnever | ⟨s', hs', hstands, -⟩
    · rw [step_of_never hnever] at hstep
      cases hstep
    · obtain rfl : s = s' := Option.some.inj (hstep.symm.trans hs')
      exact hstands

theorem recorded_run (hpos : 0 < maxAttempts)
    (h : (job url schedule maxAttempts).run .init (first attempts (m + 1)) = some s) :
    Recorded maxAttempts (m + 1) (attempts m).outcome s := by
  rw [first_succ, Machine.run_concat] at h
  obtain ⟨t, hrun, hstep⟩ := h
  rcases stands_step url hpos (stands_run hpos hrun) with hnever | ⟨s', hs', -, hrecorded⟩
  · rw [step_of_never hnever] at hstep
    cases hstep
  · obtain rfl : s = s' := Option.some.inj (hstep.symm.trans hs')
    exact hrecorded

theorem waits_of_stands (h : Stands schedule maxAttempts attempts m s) :
    s.waits = delays schedule m := by
  cases h with
  | fresh => rfl
  | due _ _ _ _ _ hwaits | ended _ _ _ _ hwaits => exact hwaits

theorem bounds_of_stands (h : Stands schedule maxAttempts attempts m s) :
    m ≤ maxAttempts ∧ ∀ i, i + 1 < m → (attempts i).outcome = .retry := by
  cases h with
  | fresh => exact ⟨Nat.zero_le _, fun i hi => absurd hi (Nat.not_lt_zero _)⟩
  | due _ hlt hretried => exact ⟨hlt.le, fun i hi => hretried i (by omega)⟩
  | ended hlt hretried => exact ⟨hlt, fun i hi => hretried i (by omega)⟩

/-- The attempts go on as long as they are to be retried and some are left. -/
theorem run_isSome_iff (hpos : 0 < maxAttempts) :
    ((job url schedule maxAttempts).run .init (first attempts m)).isSome = true ↔
      m ≤ maxAttempts ∧ ∀ i, i + 1 < m → (attempts i).outcome = .retry := by
  constructor
  · intro h
    obtain ⟨s, hs⟩ := Option.isSome_iff_exists.mp h
    exact bounds_of_stands (stands_run hpos hs)
  · rintro ⟨hle, hretried⟩
    rw [Option.isSome_iff_exists]
    induction m with
    | zero => exact ⟨_, rfl⟩
    | succ m ih =>
      obtain ⟨s, hs⟩ := ih (by omega) fun i hi => hretried i (by omega)
      have hstands := stands_run hpos hs
      rcases stands_step url hpos hstands with hnever | ⟨t, ht, -⟩
      · cases hstands with
        | fresh => cases hnever
        | due _ _ _ _ hdue => cases hdue.symm.trans hnever
        | ended _ _ hlast =>
          rcases hlast with hne | heq
          · exact absurd (hretried _ (Nat.lt_succ_self _)) hne
          · omega
      · exact ⟨t, by rw [first_succ, Machine.run_concat]; exact ⟨s, hs, ht⟩⟩

theorem makeBackoffStrategy_eq_iff {i : ℕ} (h : i < schedule.length) :
    makeBackoffStrategy schedule (i + 1) = schedule[i]? ↔
      (i + 1 < schedule.length → schedule[i + 1]? = schedule[i]?) := by
  by_cases hnext : i + 1 < schedule.length
  · rw [makeBackoffStrategy, List.getElem?_eq_getElem hnext, Option.some_or]
    exact ⟨fun heq _ => heq, fun heq => heq hnext⟩
  · -- the last retry waits for the last entry, which is its own
    have hlast : i = schedule.length - 1 := by omega
    rw [makeBackoffStrategy, List.getElem?_eq_none (not_lt.mp hnext), Option.none_or,
      List.getLast?_eq_getElem?, ← hlast]
    exact iff_of_true rfl fun hlt => absurd hlt hnext

theorem delays_eq_take_iff (hm : m ≤ schedule.length + 1) :
    delays schedule m = (schedule.take (m - 1)).map some ↔
      ∀ i, i + 1 < m → makeBackoffStrategy schedule (i + 1) = schedule[i]? := by
  constructor
  · intro h i hi
    have hget := congrArg (fun l => l[i]?) h
    have hlt : i < m - 1 := by omega
    have hlen : i < schedule.length := by omega
    simpa [delays, hlt, hlen] using hget
  · intro h
    apply List.ext_getElem?
    intro i
    by_cases hlt : i < m - 1
    · have hlen : i < schedule.length := by omega
      have hi := h i (by omega)
      simpa [delays, hlt, hlen] using hi
    · simp [delays, hlt]

end Runs

/-! ## The job and the worker -/

section Worker

variable {url : String} {answer : Cmd → Answer} {rest : Run} {row row' : WebhookDelivery}
  {r : Except String Unit} {schedule : List Ms} {s s' : Job Ms} {t : Series} {a : Attempt}

/-- What is conducted is a run of the processor. -/
theorem series_processor (url : String) (h : conduct answer rest row = some (r, row'))
    (hphase : t.phase = .active rest) (hrow : t.row = row) :
    ∃ ls history, (series url).run t ls =
      some { t with phase := .active (.done r), row := row', history := history } := by
  induction rest generalizing row t with
  | done r' =>
    cases h
    subst hrow
    exact ⟨[], t.history, by rw [← hphase]; rfl⟩
  | issue c k ih =>
    obtain ⟨⟨answered, row₁⟩, hexec, hrest⟩ := Option.bind_eq_some_iff.mp h
    subst hrow
    obtain ⟨ls, history, hrun⟩ := ih answered hrest
      (t := ⟨t.attemptsMade, .active (k answered), t.listeners, row₁, ⟨c, answered⟩ :: t.history⟩)
      rfl rfl
    refine ⟨.processor (answer c) :: ls, history, Machine.run_cons.mpr ⟨_, ?_, hrun⟩⟩
    simp only [series, hphase, hexec, Option.map_some]

/-- What is conducted is a run of a listener. -/
theorem series_listener (url : String) {n : ℕ} (h : conduct answer rest row = some (r, row'))
    (hn : t.listeners[n]? = some rest) (hrow : t.row = row) :
    ∃ ls history listeners, (series url).run t ls =
      some { t with listeners := listeners, row := row', history := history } := by
  induction rest generalizing row t with
  | done r' =>
    cases h
    subst hrow
    exact ⟨[], t.history, t.listeners, rfl⟩
  | issue c k ih =>
    obtain ⟨⟨answered, row₁⟩, hexec, hrest⟩ := Option.bind_eq_some_iff.mp h
    subst hrow
    have hlt : n < t.listeners.length := (List.getElem?_eq_some_iff.mp hn).1
    obtain ⟨ls, history, listeners, hrun⟩ := ih answered hrest
      (t := ⟨t.attemptsMade, t.phase, t.listeners.set n (k answered), row₁,
        ⟨c, answered⟩ :: t.history⟩)
      (List.getElem?_set_self hlt) rfl
    refine ⟨.listener n (answer c) :: ls, history, listeners, Machine.run_cons.mpr ⟨_, ?_, hrun⟩⟩
    simp only [series, hn, hexec, Option.map_some]

def Due.phase : Due Ms → Phase
  | .never => .finished
  | .atOnce | .after _ => .waiting

/-- The series has come as far as the job. -/
structure Job.Matches (s : Job Ms) (t : Series) : Prop where
  attemptsMade : t.attemptsMade = s.attemptsMade
  row : t.row = s.row
  phase : t.phase = s.due.phase

theorem matches_attempt (hphase : t.phase = .waiting) (hmade : t.attemptsMade = s.attemptsMade)
    (hrow : t.row = s.row) (h : s.attempt url schedule webhookMaxAttempts a = some s') :
    ∃ ls t', (series url).run t ls = some t' ∧ s'.Matches t' := by
  obtain ⟨⟨r, row⟩, hprocessor, h⟩ := Option.bind_eq_some_iff.mp h
  obtain ⟨ls, history, hrun⟩ := series_processor url
    (t := { t with phase := .active (processor url t.attemptsMade).run })
    (hmade ▸ hprocessor) rfl hrow
  have htaken : (series url).run t (.take :: ls) =
      some ⟨t.attemptsMade, .active (.done r), t.listeners, row, history⟩ :=
    Machine.run_cons.mpr ⟨_, by simp only [series, hphase], hrun⟩
  cases r with
  | ok =>
    cases h
    have hsettled : (series url).run t (.take :: ls ++ [.settle]) =
        some ⟨t.attemptsMade, .finished, t.listeners, row, history⟩ :=
      Machine.run_concat.mpr ⟨_, htaken, rfl⟩
    exact ⟨_, _, hsettled, hmade, rfl, rfl⟩
  | error message =>
    obtain ⟨⟨r', row'⟩, hlistener, h⟩ := Option.bind_eq_some_iff.mp h
    cases h
    -- the queue counts the attempt and calls the listener, which then runs to its end
    have hsettled : (series url).run t (.take :: ls ++ [.settle]) =
        some ⟨t.attemptsMade + 1,
          if t.attemptsMade + 1 < webhookMaxAttempts then .waiting else .finished,
          t.listeners ++ [(onFailed (t.attemptsMade + 1) message).run], row, history⟩ :=
      Machine.run_concat.mpr ⟨_, htaken, rfl⟩
    obtain ⟨ls', history', listeners, hrun'⟩ := series_listener url
      (n := t.listeners.length)
      (t := ⟨t.attemptsMade + 1,
          if t.attemptsMade + 1 < webhookMaxAttempts then .waiting else .finished,
          t.listeners ++ [(onFailed (t.attemptsMade + 1) message).run], row, history⟩)
      (hmade ▸ hlistener) (by simp [hmade, onFailedAt_webhookMaxAttempts]) rfl
    refine ⟨_, _, Machine.run_append.mpr ⟨_, hsettled, hrun'⟩, congrArg (· + 1) hmade, rfl, ?_⟩
    show (if t.attemptsMade + 1 < webhookMaxAttempts then _ else _) = Due.phase (if _ then _ else _)
    rw [hmade]
    split <;> rfl

theorem matches_step (hm : s.Matches t)
    (h : (job url schedule webhookMaxAttempts).step s a = some s') :
    ∃ ls t', (series url).run t ls = some t' ∧ s'.Matches t' := by
  obtain ⟨hmade, hrow, hphase⟩ := hm
  cases hdue : s.due with
  | never =>
    rw [step_of_never hdue] at h
    cases h
  | atOnce =>
    rw [hdue] at hphase
    simp only [job, hdue] at h
    exact matches_attempt hphase hmade hrow h
  | after delay =>
    rw [hdue] at hphase
    simp only [job, hdue] at h
    exact matches_attempt (s := { s with waits := s.waits ++ [delay] }) hphase hmade hrow h

/-- A job of the queue is a run of the worker. -/
theorem series_run_of_job {as : List Attempt}
    (h : (job url schedule webhookMaxAttempts).run .init as = some s) :
    ∃ ls t, (series url).run .init ls = some t ∧ s.Matches t := by
  have hgeneral : ∀ (as : List Attempt) (s₀ : Job Ms) (t₀ : Series), s₀.Matches t₀ →
      (job url schedule webhookMaxAttempts).run s₀ as = some s →
      ∃ ls t, (series url).run t₀ ls = some t ∧ s.Matches t := by
    intro as
    induction as with
    | nil =>
      intro s₀ t₀ hm hrun
      cases hrun
      exact ⟨[], t₀, rfl, hm⟩
    | cons a as ih =>
      intro s₀ t₀ hm hrun
      obtain ⟨s₁, hstep, hrest⟩ := Machine.run_cons.mp hrun
      obtain ⟨ls, t₁, hls, hm₁⟩ := matches_step hm hstep
      obtain ⟨ls', t, hls', hm'⟩ := ih s₁ t₁ hm₁ hrest
      exact ⟨ls ++ ls', t, Machine.run_append.mpr ⟨t₁, hls, hls'⟩, hm'⟩
  exact hgeneral as .init .init ⟨rfl, rfl, rfl⟩ h

end Worker

/-- A series follows its schedule exactly if every entry that a retry has come to is followed by an
equal one. -/
theorem followed_iff (url : String) (schedule : List Ms) (attempts : ℕ → Attempt) :
    Followed url schedule attempts ↔
      ∀ i, i + 1 < schedule.length → (∀ j ≤ i, (attempts j).outcome = .retry) →
        schedule[i + 1]? = schedule[i]? := by
  have hpos : 0 < schedule.length + 1 := Nat.succ_pos _
  constructor
  · intro h i hi hretried
    have hmade : i + 2 ≤ schedule.length + 1 ∧ ∀ j, j + 1 < i + 2 → (attempts j).outcome = .retry :=
      ⟨by omega, fun j hj => hretried j (by omega)⟩
    obtain ⟨s, hs⟩ := Option.isSome_iff_exists.mp ((h.made (i + 2)).mpr hmade)
    have hwaits := (waits_of_stands (stands_run hpos hs)).symm.trans (h.waited _ s hs)
    have hbackoff := (delays_eq_take_iff hmade.1).mp hwaits i (by omega)
    exact (makeBackoffStrategy_eq_iff (by omega)).mp hbackoff hi
  · intro h
    refine ⟨fun m => run_isSome_iff hpos, fun m s hs => ?_, fun m s hs => recorded_run hpos hs⟩
    have hstands := stands_run hpos hs
    obtain ⟨hm, hretried⟩ := bounds_of_stands hstands
    rw [waits_of_stands hstands, delays_eq_take_iff hm]
    intro i hi
    refine (makeBackoffStrategy_eq_iff (by omega)).mpr fun hnext => ?_
    exact h i hnext fun j hj => hretried j (by omega)

/-- The endpoint is always down. -/
def down : Attempt := ⟨⟨true, none⟩, unavailable, 0, 0⟩

/-- The first retry waits for 5 seconds instead of one, and the last two for 30 minutes each. -/
theorem followed_fails : ¬∀ (url : String) (schedule : List ℕ) (attempts : ℕ → Attempt),
    Followed url schedule attempts := by
  intro h
  have hwaits := (h "https://hooks.example/x" webhookRetryScheduleMs fun _ => down).waited 2 _ rfl
  revert hwaits
  decide

end CloudMesh.Webhooks.Worker
