import CloudMesh.Concurrent.Machine
import CloudMesh.Webhooks.Deliver

/-!
# The worker of a delivery

`createWebhookWorker` of `packages/webhooks/src/queue.ts` with `recordDeliveryAttempt`: one job of
the queue is the series of attempts at one delivery. The queue runs the processor again if it has
thrown, and calls the `failed` listener without waiting for it. An attempt that is final throws all
the same if its outcome cannot be written, so it is made again; where no such write fails, the row
says what has happened.

## Main definitions

- `processor`, `onFailed` — the two programs of the worker
- `series` — the job, with the queue that runs it
- `Truthful` — what the row and the requests owe to the outcomes
-/

namespace CloudMesh.Webhooks.Worker

open Concurrent

def webhookRetryScheduleMs : List ℕ := [1000, 5000, 30000, 5 * 60000, 30 * 60000]

def webhookMaxAttempts : ℕ := webhookRetryScheduleMs.length + 1

inductive WebhookDeliveryStatus
  | pending
  | delivered
  | failed
  | exhausted
  deriving DecidableEq, Repr

/-- What attempts have left in the row. -/
structure WebhookDelivery where
  status : WebhookDeliveryStatus
  attempts : ℕ
  responseStatus : Option ℕ
  responseBody : Option JsString
  lastAttemptAt : Option ℤ
  deriving DecidableEq

/-- The `data` of an update; a field that is `undefined` is not written. -/
structure DeliveryData where
  status : WebhookDeliveryStatus
  attempts : ℕ
  responseStatus : Option ℕ
  responseBody : Option JsString
  lastAttemptAt : ℤ
  deriving DecidableEq

def WebhookDelivery.update (row : WebhookDelivery) (data : DeliveryData) : WebhookDelivery where
  status := data.status
  attempts := data.attempts
  responseStatus := data.responseStatus <|> row.responseStatus
  responseBody := data.responseBody <|> row.responseBody
  lastAttemptAt := some data.lastAttemptAt

/-- `sendAndClassify` sends one request. -/
inductive Cmd
  | dateNow
  | checkTarget (url : String)
  | sendAndClassify
  | updateDelivery (data : DeliveryData)
  deriving DecidableEq

abbrev sig : Signature where
  Cmd := Cmd
  Ans
    | .dateNow => ℤ
    | .checkTarget _ => SsrfCheckResult
    | .sendAndClassify => DeliveryAttemptResult
    | .updateDelivery _ => Except String Unit

abbrev Prog (α : Type) := Handler sig String α

/-! ## The code -/

def attemptDelivery (url : String) : Prog DeliveryAttemptResult := do
  let ssrf ← @Handler.call sig _ (.checkTarget url)
  if ssrf.safe then @Handler.call sig _ .sendAndClassify
  else
    pure ⟨.rejected, none, none,
      some ("blocked by SSRF guard: " ++ ssrf.reason.getD "undefined")⟩

def statusOf (outcome : DeliveryOutcome) (isFinalAttempt : Bool) : WebhookDeliveryStatus :=
  match outcome with
  | .delivered => .delivered
  | .rejected => .failed
  | .retry => if isFinalAttempt then .exhausted else .pending

def recordDeliveryAttempt (attempt : ℕ) (result : DeliveryAttemptResult) (isFinalAttempt : Bool) :
    Prog Unit := do
  let now ← @Handler.call sig _ .dateNow
  ExceptT.mk (@Program.call sig (.updateDelivery ⟨statusOf result.outcome isFinalAttempt, attempt,
    result.responseStatus, result.responseBody, now⟩))

def processor (url : String) (attemptsMade : ℕ) : Prog Unit := do
  let attempt := attemptsMade + 1
  let result ← attemptDelivery url
  if result.outcome = .retry then
    recordDeliveryAttempt attempt result false
    throw (result.errorMessage.getD "delivery failed, retrying")
  else recordDeliveryAttempt attempt result true

/-- The listener, which leaves an error of its write to `onError`. -/
def onFailed (attemptsMade : ℕ) (message : String) : Prog Unit :=
  if attemptsMade ≥ webhookMaxAttempts then
    tryCatch (recordDeliveryAttempt attemptsMade ⟨.retry, none, none, some message⟩ true)
      fun _ => pure ()
  else pure ()

/-! ## The queue -/

/-- What the environment answers to a command. A write can be refused, or carried out and still
answered with an error. -/
inductive Answer
  | now (t : ℤ)
  | checked (ssrf : SsrfCheckResult)
  | sent (result : DeliveryAttemptResult)
  | written
  | refused (message : String)
  | lost (message : String)

def exec (c : Cmd) (i : Answer) (row : WebhookDelivery) : Option (sig.Ans c × WebhookDelivery) :=
  match c, i with
  | .dateNow, .now t => some (t, row)
  | .checkTarget _, .checked ssrf => some (ssrf, row)
  | .sendAndClassify, .sent result => some (result, row)
  | .updateDelivery data, .written => some (.ok (), row.update data)
  | .updateDelivery _, .refused message => some (.error message, row)
  | .updateDelivery data, .lost message => some (.error message, row.update data)
  | _, _ => none

abbrev Run := Program sig (Except String Unit)

inductive Phase
  | waiting
  | active (rest : Run)
  | finished

/-- The job with its counter, the listeners called so far, the row, and all commands answered, the
latest first. -/
structure Series where
  attemptsMade : ℕ
  phase : Phase
  listeners : List Run
  row : WebhookDelivery
  history : Transcript sig

def Series.init : Series := ⟨0, .waiting, [], ⟨.pending, 0, none, none, none⟩, []⟩

/-- The queue takes the job, its processor or a listener goes on, or the queue sees that the
processor has ended. -/
inductive Label
  | take
  | processor (i : Answer)
  | settle
  | listener (k : ℕ) (i : Answer)

def series (url : String) : Machine Series Label where
  step s
    | .take =>
      match s.phase with
      | .waiting => some { s with phase := .active (processor url s.attemptsMade).run }
      | _ => none
    | .processor i =>
      match s.phase with
      | .active (.issue c k) => (exec c i s.row).map fun (r, row) =>
          { s with phase := .active (k r), row := row, history := ⟨c, r⟩ :: s.history }
      | _ => none
    | .settle =>
      match s.phase with
      | .active (.done (.ok ())) => some { s with phase := .finished }
      | .active (.done (.error message)) => some { s with
          attemptsMade := s.attemptsMade + 1
          listeners := s.listeners ++ [(onFailed (s.attemptsMade + 1) message).run]
          phase := if s.attemptsMade + 1 < webhookMaxAttempts then .waiting else .finished }
      | _ => none
    | .listener n i =>
      match s.listeners[n]? with
      | some (.issue c k) => (exec c i s.row).map fun (r, row) =>
          { s with
            listeners := s.listeners.set n (k r), row := row, history := ⟨c, r⟩ :: s.history }
      | _ => none

/-! ## What the row owes to the outcomes -/

/-- How an attempt was classified, at the command that decides it. -/
def outcomeOf : Exchange sig → Option DeliveryOutcome
  | ⟨.checkTarget _, ssrf⟩ => if ssrf.safe then none else some .rejected
  | ⟨.sendAndClassify, result⟩ => some result.outcome
  | ⟨.dateNow, _⟩ | ⟨.updateDelivery _, _⟩ => none

/-- The classified attempts, the latest first. -/
def outcomes (t : Transcript sig) : List DeliveryOutcome := t.filterMap outcomeOf

/-- Nothing is sent after an attempt that was classified delivered or rejected; such an attempt is
never recorded as exhausted, nor a delivered one as failed; and what is exhausted has been tried as
often as there are attempts, to be retried every time. -/
structure Truthful (s : Series) : Prop where
  last : s.history.Pairwise fun later earlier =>
    later.1 = .sendAndClassify → ∀ outcome ∈ outcomeOf earlier, outcome = .retry
  not_exhausted : ∀ outcome ∈ outcomes s.history, outcome ≠ .retry → s.row.status ≠ .exhausted
  not_failed : .delivered ∈ outcomes s.history → s.row.status ≠ .failed
  tried : s.row.status = .exhausted →
    outcomes s.history = List.replicate webhookMaxAttempts .retry

/-- The step does not fail to write the outcome of an attempt that is delivered or rejected. -/
def FinalWritten (s : Series) : Label → Prop
  | .processor i =>
    match s.phase, i with
    | .active (.issue (.updateDelivery data) _), .refused _
    | .active (.issue (.updateDelivery data) _), .lost _ =>
      data.status ≠ .delivered ∧ data.status ≠ .failed
    | _, _ => True
  | _ => True

instance (s : Series) : (l : Label) → Decidable (FinalWritten s l)
  | .processor i => by
    unfold FinalWritten
    dsimp only
    split <;> infer_instance
  | .take | .settle | .listener .. => isTrue trivial

/-! ## What the processor does -/

section Rules

variable {t : Transcript sig} {url : String} {n : ℕ}

@[simp] theorem outcomes_cons (e : Exchange sig) (t : Transcript sig) :
    outcomes (e :: t) = (outcomeOf e).toList ++ outcomes t := by
  cases h : outcomeOf e <;> simp [outcomes, h]

/-- `n` attempts have been made, all to be retried. -/
def Retried (n : ℕ) (t : Transcript sig) : Prop := outcomes t = List.replicate n .retry

/-- After them one more attempt was classified. -/
def Classified (n : ℕ) (outcome : DeliveryOutcome) (t : Transcript sig) : Prop :=
  outcomes t = outcome :: List.replicate n .retry

/-- A write has failed whose status is that of a final attempt. -/
def FinalFault (t : Transcript sig) : Prop :=
  ∃ data message, ⟨.updateDelivery data, .error message⟩ ∈ t ∧
    (data.status = .delivered ∨ data.status = .failed)

/-- The last command was not a write. -/
def Unwritten (t : Transcript sig) : Prop :=
  ∀ data r, t.head? ≠ some ⟨.updateDelivery data, r⟩

/-- What has happened when the processor issues a command, after `n` runs before. -/
def Rule (n : ℕ) (t : Transcript sig) : Cmd → Prop
  | .checkTarget _ | .sendAndClassify => Retried n t
  | .dateNow => ∃ outcome, Classified n outcome t ∧ Unwritten t
  | .updateDelivery data => ∃ outcome, Classified n outcome t ∧ Unwritten t ∧
      data.status = statusOf outcome (outcome ≠ .retry)

/-- The last command was a successful write of the outcome. -/
def Settled (n : ℕ) (outcome : DeliveryOutcome) (t : Transcript sig) : Prop :=
  Classified n outcome t ∧ outcome ≠ .retry ∧ ∃ data,
    t.head? = some ⟨.updateDelivery data, .ok ()⟩ ∧ data.status = statusOf outcome true

/-- The processor has returned after a final attempt, or it has thrown after another one or because
of a write. -/
def Ended (n : ℕ) (r : Except String Unit) (t : Transcript sig) : Prop :=
  match r with
  | .ok () => ∃ outcome, Settled n outcome t
  | .error _ => Retried (n + 1) t ∨ FinalFault t

theorem attemptDelivery_triple : Handler.Triple (Rule n) (Retried n) (attemptDelivery url)
    (fun result t => Classified n result.outcome t ∧ Unwritten t) fun _ _ => False := by
  intro t ht
  refine Handler.follows_call_bind ht fun (ssrf : SsrfCheckResult) => ?_
  cases hsafe : ssrf.safe with
  | true =>
    refine ⟨?_, fun (result : DeliveryAttemptResult) => ⟨?_, by simp [Unwritten]⟩⟩
    · simpa [Rule, Retried, outcomeOf, hsafe] using ht
    · simpa [Classified, Retried, outcomeOf, hsafe] using ht
  | false =>
    refine ⟨?_, by simp [Unwritten]⟩
    simpa [Classified, Retried, outcomeOf, hsafe] using ht

theorem recordDeliveryAttempt_triple (attempt : ℕ) (result : DeliveryAttemptResult) :
    Handler.Triple (Rule n) (fun t => Classified n result.outcome t ∧ Unwritten t)
      (recordDeliveryAttempt attempt result (result.outcome ≠ .retry))
      (fun _ t => Classified n result.outcome t ∧ ∃ data,
        t.head? = some ⟨.updateDelivery data, .ok ()⟩ ∧
          data.status = statusOf result.outcome (result.outcome ≠ .retry))
      fun _ t => Classified n result.outcome t ∧ ∃ data message,
        ⟨.updateDelivery data, .error message⟩ ∈ t ∧
          data.status = statusOf result.outcome (result.outcome ≠ .retry) := by
  rintro t ⟨ht, hunwritten⟩
  refine ⟨⟨_, ht, hunwritten⟩, fun (now : ℤ) => ⟨⟨result.outcome, ?_, by simp [Unwritten], rfl⟩,
    fun (answer : Except String Unit) => ?_⟩⟩
  · simpa [Classified, outcomeOf] using ht
  · cases answer with
    | ok _ => exact ⟨by simpa [Classified, outcomeOf] using ht, _, rfl, rfl⟩
    | error message =>
      exact ⟨by simpa [Classified, outcomeOf] using ht, _, message, List.mem_cons_self, rfl⟩

theorem processor_triple : Handler.Triple (Rule n) (Retried n) (processor url n)
    (fun _ t => ∃ outcome, Settled n outcome t) fun _ t => Retried (n + 1) t ∨ FinalFault t := by
  refine (attemptDelivery_triple.conseq (fun _ h => h) (fun _ _ h => h) fun _ _ h => h.elim).bind
    fun result => ?_
  have hrecord := @recordDeliveryAttempt_triple n (n + 1) result
  by_cases hretry : result.outcome = .retry
  · simp only [hretry, ne_eq, not_true_eq_false, decide_false] at hrecord
    simp only [hretry, if_true]
    refine (hrecord.conseq (fun _ h => h) (fun _ _ h => h) fun _ _ h => ?_).bind
      fun _ => .throw fun _ h => ?_
    · exact Or.inl h.1
    · exact Or.inl h.1
  · simp only [hretry, ne_eq, not_false_eq_true, decide_true] at hrecord
    rw [if_neg hretry]
    refine hrecord.conseq (fun _ h => h) (fun _ t h => ?_) fun _ t h => ?_
    · exact ⟨result.outcome, h.1, hretry, h.2⟩
    · obtain ⟨-, data, message, hmem, hstatus⟩ := h
      refine .inr ⟨data, message, hmem, ?_⟩
      rw [hstatus]
      cases houtcome : result.outcome with
      | delivered => exact .inl rfl
      | rejected => exact .inr rfl
      | retry => exact absurd houtcome hretry

theorem processor_follows (h : Retried n t) :
    (processor url n).run.Follows (Rule n) (Ended n) t := by
  refine (processor_triple t h).mono (fun _ _ h => h) fun r t h => ?_
  cases r <;> exact h

/-! ## What the row says -/

/-- The row has the status of the outcome that has been written, and is pending without one. -/
def RowMatches (n : ℕ) (row : WebhookDelivery) (t : Transcript sig) : Prop :=
  (∀ outcome, Settled n outcome t → row.status = statusOf outcome true) ∧
    ((∀ outcome, ¬Settled n outcome t) → row.status = .pending)

theorem not_settled_of_retried {m : ℕ} (h : Retried m t) (outcome : DeliveryOutcome) :
    ¬Settled n outcome t := by
  rintro ⟨hclassified, hne, -⟩
  have hmem : outcome ∈ List.replicate m .retry := by
    rw [← h, hclassified]
    exact List.mem_cons_self
  exact hne (List.eq_of_mem_replicate hmem)

theorem not_settled_of_unwritten (h : Unwritten t) (outcome : DeliveryOutcome) :
    ¬Settled n outcome t := by
  rintro ⟨-, -, data, hhead, -⟩
  exact h data _ hhead

theorem not_settled_of_rule {c : Cmd} (h : Rule n t c) (outcome : DeliveryOutcome) :
    ¬Settled n outcome t := by
  cases c with
  | checkTarget | sendAndClassify => exact not_settled_of_retried h outcome
  | dateNow =>
    obtain ⟨_, -, hunwritten⟩ := h
    exact not_settled_of_unwritten hunwritten outcome
  | updateDelivery =>
    obtain ⟨_, -, hunwritten, -⟩ := h
    exact not_settled_of_unwritten hunwritten outcome

theorem rowMatches_of_not_settled {row : WebhookDelivery} (hs : row.status = .pending)
    (h : ∀ outcome, ¬Settled n outcome t) : RowMatches n row t :=
  ⟨fun outcome hsettled => absurd hsettled (h outcome), fun _ => hs⟩

theorem rowMatches_exec {c : Cmd} {i : Answer} {row row' : WebhookDelivery} {r : sig.Ans c}
    (hrow : RowMatches n row t) (hrule : Rule n t c) (hx : exec c i row = some (r, row'))
    (hfault : ¬FinalFault (⟨c, r⟩ :: t)) : RowMatches n row' (⟨c, r⟩ :: t) := by
  have hpending := hrow.2 (not_settled_of_rule hrule)
  cases c with
  | dateNow | checkTarget | sendAndClassify =>
    cases i <;> cases hx
    exact rowMatches_of_not_settled hpending
      (not_settled_of_unwritten (by simp [Unwritten]))
  | updateDelivery data =>
    obtain ⟨outcome, hclassified, -, hstatus⟩ := hrule
    have hsame : ∀ {r : Except String Unit},
        Classified n outcome (⟨.updateDelivery data, r⟩ :: t) := by
      intro r
      simpa [Classified, outcomeOf] using hclassified
    have herror : ∀ message outcome,
        ¬Settled n outcome (⟨.updateDelivery data, .error message⟩ :: t) := by
      rintro message outcome ⟨-, -, data', hhead, -⟩
      cases hhead
    cases i with
    | now | checked | sent => cases hx
    | written =>
      cases hx
      by_cases hretry : outcome = .retry
      · subst hretry
        refine rowMatches_of_not_settled hstatus fun outcome hsettled => ?_
        have heq := hsettled.1.symm.trans hsame
        exact hsettled.2.1 (List.cons.inj heq).1
      · have hdata : data.status = statusOf outcome true := by simpa [hretry] using hstatus
        refine ⟨fun outcome' hsettled => ?_, fun hnone => ?_⟩
        · obtain rfl := (List.cons.inj (hsettled.1.symm.trans hsame)).1
          exact hdata
        · exact absurd ⟨hsame, hretry, data, rfl, hdata⟩ (hnone outcome)
    | refused message =>
      cases hx
      exact rowMatches_of_not_settled hpending (herror message)
    | lost message =>
      cases hx
      refine rowMatches_of_not_settled ?_ (herror message)
      have hnot : data.status ≠ .delivered ∧ data.status ≠ .failed := by
        constructor
        · exact fun h => hfault ⟨data, message, List.mem_cons_self, .inl h⟩
        · exact fun h => hfault ⟨data, message, List.mem_cons_self, .inr h⟩
      show data.status = .pending
      rw [hstatus] at hnot ⊢
      cases outcome with
      | delivered => exact absurd rfl hnot.1
      | rejected => exact absurd rfl hnot.2
      | retry => rfl

end Rules

/-! ## The series -/

/-- What the listener of the last attempt does. -/
def Exhausting : Cmd → Prop
  | .dateNow => True
  | .updateDelivery data => data.status = .exhausted
  | .checkTarget _ | .sendAndClassify => False

theorem onFailed_every (attemptsMade : ℕ) (message : String) :
    Handler.Every Exhausting (onFailed attemptsMade message) := by
  unfold onFailed
  split
  · refine Handler.Every.tryCatch ⟨trivial, fun _ => ⟨rfl, fun _ => trivial⟩⟩ fun _ => ?_
    exact Handler.every_pure ()
  · exact Handler.every_pure ()

theorem onFailed_run_of_lt {attemptsMade : ℕ} (h : attemptsMade < webhookMaxAttempts)
    (message : String) : (onFailed attemptsMade message).run = .done (.ok ()) := by
  rw [onFailed, if_neg (not_le.mpr h)]
  rfl

/-- All listeners have come to their end. -/
def Quiet (listeners : List Run) : Prop := ∀ rest ∈ listeners, ∃ r, rest = .done r

/-- Where the series is, with what has happened so far. -/
inductive Standing (s : Series) : Prop
  | waiting (hphase : s.phase = .waiting) (hlt : s.attemptsMade < webhookMaxAttempts)
      (htried : Retried s.attemptsMade s.history) (hrow : s.row.status = .pending)
      (hquiet : Quiet s.listeners)
  | active (rest : Run) (hphase : s.phase = .active rest)
      (hlt : s.attemptsMade < webhookMaxAttempts)
      (hrest : rest.Follows (Rule s.attemptsMade) (Ended s.attemptsMade) s.history)
      (hrow : RowMatches s.attemptsMade s.row s.history) (hquiet : Quiet s.listeners)
  | settled (n : ℕ) (outcome : DeliveryOutcome) (hphase : s.phase = .finished)
      (hclassified : Classified n outcome s.history) (hne : outcome ≠ .retry)
      (hrow : s.row.status = statusOf outcome true) (hquiet : Quiet s.listeners)
  | tried (hphase : s.phase = .finished) (htried : Retried webhookMaxAttempts s.history)
      (hrow : s.row.status = .pending ∨ s.row.status = .exhausted)
      (hlisteners : ∀ rest ∈ s.listeners, rest.Every Exhausting)

variable {s s' : Series} {l : Label} {ls : List Label} {url : String}

/-- Everything that a label can do. -/
inductive Moves (url : String) (s : Series) : Label → Series → Prop
  | take (h : s.phase = .waiting) :
      Moves url s .take { s with phase := .active (processor url s.attemptsMade).run }
  | processor {i : Answer} {c : Cmd} {k : sig.Ans c → Run} {r : sig.Ans c} {row : WebhookDelivery}
      (h : s.phase = .active (.issue c k)) (hx : exec c i s.row = some (r, row)) :
      Moves url s (.processor i)
        { s with phase := .active (k r), row := row, history := ⟨c, r⟩ :: s.history }
  | returned (h : s.phase = .active (.done (.ok ()))) :
      Moves url s .settle { s with phase := .finished }
  | thrown {message : String} (h : s.phase = .active (.done (.error message))) :
      Moves url s .settle { s with
        attemptsMade := s.attemptsMade + 1
        listeners := s.listeners ++ [(onFailed (s.attemptsMade + 1) message).run]
        phase := if s.attemptsMade + 1 < webhookMaxAttempts then .waiting else .finished }
  | listener {n : ℕ} {i : Answer} {c : Cmd} {k : sig.Ans c → Run} {r : sig.Ans c}
      {row : WebhookDelivery} (h : s.listeners[n]? = some (.issue c k))
      (hx : exec c i s.row = some (r, row)) :
      Moves url s (.listener n i)
        { s with listeners := s.listeners.set n (k r), row := row, history := ⟨c, r⟩ :: s.history }

theorem moves_of_step (h : (series url).step s l = some s') : Moves url s l s' := by
  cases l with
  | take =>
    cases hphase : s.phase with
    | waiting =>
      simp only [series, hphase] at h
      cases h
      exact .take hphase
    | active | finished => simp [series, hphase] at h
  | processor i =>
    cases hphase : s.phase with
    | waiting | finished => simp [series, hphase] at h
    | active rest =>
      cases rest with
      | done r => simp [series, hphase] at h
      | issue c k =>
        simp only [series, hphase, Option.map_eq_some_iff] at h
        obtain ⟨⟨r, row⟩, hx, rfl⟩ := h
        exact .processor hphase hx
  | settle =>
    cases hphase : s.phase with
    | waiting | finished => simp [series, hphase] at h
    | active rest =>
      cases rest with
      | issue c k => simp [series, hphase] at h
      | done r =>
        cases r with
        | ok a =>
          simp only [series, hphase] at h
          cases h
          exact .returned hphase
        | error message =>
          simp only [series, hphase] at h
          cases h
          exact .thrown hphase
  | listener n i =>
    cases hrest : s.listeners[n]? with
    | none => simp [series, hrest] at h
    | some rest =>
      cases rest with
      | done r => simp [series, hrest] at h
      | issue c k =>
        simp only [series, hrest, Option.map_eq_some_iff] at h
        obtain ⟨⟨r, row⟩, hx, rfl⟩ := h
        exact .listener hrest hx

theorem not_finalFault_cons {t : Transcript sig} {c : Cmd} {r : sig.Ans c} (h : ¬FinalFault t)
    (hc : ∀ data message, (⟨c, r⟩ : Exchange sig) = ⟨.updateDelivery data, .error message⟩ →
      data.status ≠ .delivered ∧ data.status ≠ .failed) : ¬FinalFault (⟨c, r⟩ :: t) := by
  rintro ⟨data, message, hmem, hstatus⟩
  rcases List.mem_cons.mp hmem with heq | hmem
  · have hnot := hc data message heq.symm
    exact hstatus.elim hnot.1 hnot.2
  · exact h ⟨data, message, hmem, hstatus⟩

theorem not_finalFault_step (h : ¬FinalFault s.history) (hi : Standing s)
    (hw : FinalWritten s l) (hmove : Moves url s l s') : ¬FinalFault s'.history := by
  cases hmove with
  | take | returned | thrown => exact h
  | @processor i c k r row hphase hx =>
    refine not_finalFault_cons h fun data message heq => ?_
    cases heq
    simp only [FinalWritten, hphase] at hw
    cases i with
    | refused => exact hw
    | lost => exact hw
    | now | checked | sent | written => cases hx
  | @listener n i c k r row hrest hx =>
    refine not_finalFault_cons h fun data message heq => ?_
    cases heq
    have hmem := List.mem_of_getElem? hrest
    cases hi with
    | waiting _ _ _ _ hquiet | active _ _ _ _ _ hquiet | settled _ _ _ _ _ _ hquiet =>
      obtain ⟨r, hr⟩ := hquiet _ hmem
      cases hr
    | tried _ _ _ hlisteners =>
      have hstatus : data.status = .exhausted := (hlisteners _ hmem).1
      rw [hstatus]
      exact ⟨by decide, by decide⟩

theorem quiet_append {listeners : List Run} {attemptsMade : ℕ}
    (h : Quiet listeners) (hlt : attemptsMade < webhookMaxAttempts) (message : String) :
    Quiet (listeners ++ [(onFailed attemptsMade message).run]) := by
  intro rest hrest
  rcases List.mem_append.mp hrest with hrest | hrest
  · exact h rest hrest
  · exact ⟨.ok (), (List.mem_singleton.mp hrest).trans (onFailed_run_of_lt hlt message)⟩

theorem every_append {listeners : List Run} (h : Quiet listeners) (attemptsMade : ℕ)
    (message : String) :
    ∀ rest ∈ listeners ++ [(onFailed attemptsMade message).run], rest.Every Exhausting := by
  intro rest hrest
  rcases List.mem_append.mp hrest with hrest | hrest
  · obtain ⟨r, rfl⟩ := h rest hrest
    trivial
  · rw [List.mem_singleton.mp hrest]
    exact onFailed_every attemptsMade message

theorem standing_step (hi : Standing s) (hfault : ¬FinalFault s'.history)
    (hmove : Moves url s l s') : Standing s' := by
  cases hmove with
  | take h =>
    cases hi with
    | waiting hphase hlt htried hrow hquiet =>
      exact .active _ rfl hlt (processor_follows htried)
        (rowMatches_of_not_settled hrow (not_settled_of_retried htried)) hquiet
    | active _ hphase | settled _ _ hphase | tried hphase => cases h.symm.trans hphase
  | @processor i c k r row h hx =>
    cases hi with
    | active rest hphase hlt hrest hrow hquiet =>
      cases h.symm.trans hphase
      exact .active _ rfl hlt (hrest.2 r) (rowMatches_exec hrow hrest.1 hx hfault) hquiet
    | waiting hphase | settled _ _ hphase | tried hphase => cases h.symm.trans hphase
  | returned h =>
    cases hi with
    | active rest hphase hlt hrest hrow hquiet =>
      cases h.symm.trans hphase
      obtain ⟨outcome, hsettled⟩ := hrest
      exact .settled _ outcome rfl hsettled.1 hsettled.2.1 (hrow.1 outcome hsettled) hquiet
    | waiting hphase | settled _ _ hphase | tried hphase => cases h.symm.trans hphase
  | @thrown message h =>
    cases hi with
    | active rest hphase hlt hrest hrow hquiet =>
      cases h.symm.trans hphase
      -- a throw without a fault is that of an attempt to be retried
      have htried : Retried (s.attemptsMade + 1) s.history := hrest.resolve_right hfault
      have hpending := hrow.2 (not_settled_of_retried htried)
      by_cases hnext : s.attemptsMade + 1 < webhookMaxAttempts
      · exact .waiting (if_pos hnext) hnext htried hpending (quiet_append hquiet hnext message)
      · have hmax : s.attemptsMade + 1 = webhookMaxAttempts := by omega
        exact .tried (if_neg hnext) (hmax ▸ htried) (.inl hpending)
          (every_append hquiet _ message)
    | waiting hphase | settled _ _ hphase | tried hphase => cases h.symm.trans hphase
  | @listener n i c k r row h hx =>
    have hmem := List.mem_of_getElem? h
    cases hi with
    | waiting _ _ _ _ hquiet | active _ _ _ _ _ hquiet | settled _ _ _ _ _ _ hquiet =>
      obtain ⟨r, hr⟩ := hquiet _ hmem
      cases hr
    | tried hphase htried hrow hlisteners =>
      -- once no attempt is left, listeners write that the delivery is exhausted, and no more
      have hevery := hlisteners _ hmem
      refine .tried hphase ?_ ?_ fun rest hrest => ?_
      · cases c with
        | checkTarget | sendAndClassify => exact hevery.1.elim
        | dateNow | updateDelivery => simpa [Retried, outcomeOf] using htried
      · cases c with
        | checkTarget | sendAndClassify => exact hevery.1.elim
        | dateNow =>
          cases i <;> cases hx
          exact hrow
        | updateDelivery data =>
          have hstatus : data.status = .exhausted := hevery.1
          cases i with
          | now | checked | sent => cases hx
          | refused => cases hx; exact hrow
          | written | lost => cases hx; exact .inr hstatus
      · rcases List.mem_or_eq_of_mem_set hrest with hrest | rfl
        · exact hlisteners rest hrest
        · exact hevery.2 r

/-- Only the latest attempt can be final. -/
theorem pairwise_of_outcomes {t : Transcript sig} {outcome : DeliveryOutcome} {n : ℕ}
    (h : Retried n t ∨ Classified n outcome t) : t.Pairwise fun later earlier =>
      later.1 = .sendAndClassify → ∀ outcome ∈ outcomeOf earlier, outcome = .retry := by
  have hretry : (List.replicate n DeliveryOutcome.retry).Pairwise fun _ earlier =>
      earlier = .retry :=
    List.pairwise_replicate.mpr (.inr rfl)
  have hall : (outcomes t).Pairwise fun _ earlier => earlier = .retry := by
    rcases h with h | h
    · rw [h]
      exact hretry
    · rw [h]
      exact List.pairwise_cons.mpr ⟨fun _ => List.eq_of_mem_replicate, hretry⟩
  refine (List.pairwise_filterMap.mp hall).imp ?_
  intro later earlier hpair hsend outcome hearlier
  obtain ⟨c, r⟩ := later
  obtain rfl : c = .sendAndClassify := hsend
  exact hpair _ rfl outcome hearlier

theorem pairwise_of_retried {t : Transcript sig} {n : ℕ} (h : Retried n t) :
    t.Pairwise fun later earlier =>
      later.1 = .sendAndClassify → ∀ outcome ∈ outcomeOf earlier, outcome = .retry :=
  pairwise_of_outcomes (.inl h : Retried n t ∨ Classified n .retry t)

theorem truthful_of_pending (hrow : s.row.status = .pending)
    (hlast : s.history.Pairwise fun later earlier =>
      later.1 = .sendAndClassify → ∀ outcome ∈ outcomeOf earlier, outcome = .retry) :
    Truthful s :=
  ⟨hlast, fun _ _ _ => by simp [hrow], fun _ => by simp [hrow], fun h => by simp [hrow] at h⟩

theorem truthful_of_classified {n : ℕ} {outcome : DeliveryOutcome}
    (hclassified : Classified n outcome s.history) (hne : outcome ≠ .retry)
    (hrow : s.row.status = statusOf outcome true) : Truthful s := by
  have hexhausted : s.row.status ≠ .exhausted := by
    rw [hrow]
    cases outcome with
    | delivered | rejected => simp [statusOf]
    | retry => exact absurd rfl hne
  refine ⟨pairwise_of_outcomes (.inr hclassified), fun _ _ _ => hexhausted, fun hmem => ?_,
    fun h => absurd h hexhausted⟩
  rw [hclassified] at hmem
  rcases List.mem_cons.mp hmem with rfl | hmem
  · simp [hrow, statusOf]
  · cases List.eq_of_mem_replicate hmem

theorem truthful_of_standing (hi : Standing s) (hfault : ¬FinalFault s.history) :
    Truthful s := by
  cases hi with
  | waiting _ _ htried hrow _ =>
    exact truthful_of_pending hrow (pairwise_of_retried htried)
  | settled n outcome _ hclassified hne hrow _ =>
    exact truthful_of_classified hclassified hne hrow
  | tried _ htried hrow _ =>
    have hretry : ∀ outcome ∈ outcomes s.history, outcome = .retry := fun outcome hmem =>
      List.eq_of_mem_replicate (htried ▸ hmem)
    refine ⟨pairwise_of_retried htried,
      fun outcome hmem hne => absurd (hretry outcome hmem) hne, fun hmem => ?_, fun _ => htried⟩
    cases hretry _ hmem
  | active rest _ _ hrest hrow _ =>
    by_cases hsettled : ∃ outcome, Settled s.attemptsMade outcome s.history
    · obtain ⟨outcome, h⟩ := hsettled
      exact truthful_of_classified h.1 h.2.1 (hrow.1 outcome h)
    · refine truthful_of_pending (hrow.2 (not_exists.mp hsettled)) ?_
      cases rest with
      | done r =>
        cases r with
        | ok a => exact absurd hrest hsettled
        | error message =>
          exact pairwise_of_retried (hrest.resolve_right hfault)
      | issue c k =>
        have hrule := hrest.1
        cases c with
        | checkTarget | sendAndClassify =>
          exact pairwise_of_retried hrule
        | dateNow | updateDelivery =>
          obtain ⟨outcome, hclassified, -⟩ := hrule
          exact pairwise_of_outcomes (.inr hclassified)

/-- In every run of a series in which no write of a delivered or rejected attempt fails, the row
and the requests are truthful. -/
theorem truthful_run (url : String) (ls : List Label) (s : Series)
    (hrun : (series url).run .init ls = some s)
    (hw : (series url).Along FinalWritten .init ls) : Truthful s := by
  have hi : Standing s ∧ ¬FinalFault s.history := by
    refine Machine.run_induction (I := fun s => Standing s ∧ ¬FinalFault s.history) ?_ ?_ hrun hw
    · intro s l s' hi hw hstep
      have hmove := moves_of_step hstep
      have hfault := not_finalFault_step hi.2 hi.1 hw hmove
      exact ⟨standing_step hi.1 hfault hmove, hfault⟩
    · exact ⟨.waiting rfl (by decide) rfl rfl (by simp [Quiet, Series.init]),
        by simp [FinalFault, Series.init]⟩
  exact truthful_of_standing hi.1 hi.2

/-- The labels of one attempt whose request has the given result. -/
def attemptLabels (result : DeliveryAttemptResult) (write : Answer) : List Label :=
  [.take, .processor (.checked ⟨true, none⟩), .processor (.sent result), .processor (.now 0),
    .processor write, .settle]

def unavailable : DeliveryAttemptResult := ⟨.retry, some 503, some [], none⟩

/-- A body that PostgreSQL does not store as text. -/
def nulBody : DeliveryAttemptResult := ⟨.delivered, some 200, some [0], none⟩

/-- The endpoint is down, then it is up; the first write fails. -/
theorem truthful_run_second : ∃ s, (series "https://hooks.example/x").run .init
    (attemptLabels unavailable (.refused "connection lost") ++
      attemptLabels ⟨.delivered, some 200, some (utf16 "ok"), none⟩ .written) = some s ∧
    s.row.status = .delivered ∧ Truthful s := by
  refine ⟨_, rfl, rfl, ?_⟩
  exact truthful_run "https://hooks.example/x" (attemptLabels unavailable
    (.refused "connection lost") ++
      attemptLabels ⟨.delivered, some 200, some (utf16 "ok"), none⟩ .written)
    _ rfl (by decide)

/-- The first attempt is delivered, and the write of that fails. -/
theorem truthful_fails : ¬∀ url ls s, (series url).run .init ls = some s → Truthful s := by
  intro h
  have hlast := (h "https://hooks.example/x" (attemptLabels nulBody (.refused "invalid byte") ++
    attemptLabels nulBody (.refused "invalid byte")) _ rfl).last
  have hsecond := List.pairwise_cons.mp (List.pairwise_cons.mp (List.pairwise_cons.mp hlast).2).2
  have hretry := hsecond.1 ⟨.sendAndClassify, nulBody⟩
    (.tail _ (.tail _ (.tail _ (.head _)))) rfl .delivered rfl
  cases hretry

end CloudMesh.Webhooks.Worker
