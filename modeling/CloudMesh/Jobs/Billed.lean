import CloudMesh.Gateway.Billing
import CloudMesh.Jobs.Live

/-!
# Billing of bulk jobs

Each prompt of a `bulk_chat` job is billed under an id made of the job's own id and the number of
the prompt. Every attempt therefore records under the same ids, however many attempts there are,
however far each one gets and whether they run one after the other or at the same time.

## Main definitions

- `stalling` — the gateway, with workers whose locks run out
- `PromptsBilledOnce` — what is to hold of the usage of a job
- `BillRule` — what a process has done when it bills or completes a job
-/

namespace CloudMesh.Gateway

open Concurrent

/-! ## Stalled attempts -/

/-- What changes by itself: what changes for the gateway, and the queue, which hands an entry out
again when the lock of its worker has run out. The worker knows nothing of it and goes on. -/
inductive JobDrift
  | other (e : Drift)
  | stall (entry : QueueEntry)

def jobDrift : JobDrift → Store → Option Store
  | .other e, s => drift e s
  | .stall entry, s =>
    if entry ∈ s.active then
      some { s with active := s.active.erase entry, queue := s.queue ++ [entry] }
    else none

def stalling (deps : Deps) : System sig Pid Store Input JobDrift Op Outcome where
  exec := exec deps.similarity
  drift := jobDrift
  code p op := (handler deps p.orgId op).run

/-! ## The bills of a job -/

/-- The rows for one prompt of a job. -/
def Store.promptRows (s : Store) (id : Uuid) (i : ℕ) : List UsageRow :=
  s.usageRecords.filter fun row => row.params.requestId = jobRequestId id i

/-- The `usage.recorded` events for one prompt of a job. -/
def Store.promptEvents (s : Store) (id : Uuid) (i : ℕ) : List (RecordUsageParams × ℚ) :=
  s.usageEvents.filter fun u => u.1.requestId = jobRequestId id i

/-- The handler has returned in some attempt: its result is being written, or the write has been
answered. -/
def HandlerReturned (c : GatewayConfig) (id : Uuid) : Prop :=
  ∃ p P, c.procs p = some P ∧ ∃ orgId result,
    ((∃ k, P.prog = .issue (.updateJob orgId id (.completed result)) k) ∨
      ∃ answer, ⟨p, .updateJob orgId id (.completed result), answer⟩ ∈ c.world.history)

/-- The provider call for one prompt. -/
def promptRequest (resolved : ResolvedModel) (prompt : String) : ChatRequest :=
  ⟨resolved.providerModel, [⟨.user, prompt⟩], some false, none, none⟩

/-- The entries that have been taken from the queue, the latest first. -/
def takenEntries (t : Transcript sig) : List QueueEntry :=
  t.filterMap fun
    | ⟨.queueTake _, .ok entry⟩ => some entry.1
    | _ => none

/-- The call of an attempt at the job for its prompt number `i`: it has resolved, and the one entry
that had been taken before is of the job, and so many calls had resolved. -/
def PromptCall (orgId : OrgId) (id : Uuid) (provider : Provider) (req : ChatRequest) (i : ℕ)
    (response : ChatResponse) (t : Transcript sig) : Prop :=
  ∃ entry t', takenEntries t' = [entry] ∧ entry.data.orgId = orgId ∧
    entry.data.jobRecordId = id ∧ (answers t').length = i ∧
    ⟨.chat provider req, .ok response⟩ :: t' <:+ t

/-- The row bills the call that a worker has made for the prompt of the job, and that has
resolved. -/
def BillsPrompt (deps : Deps) (c : GatewayConfig) (job : JobRow) (apiKeyId : Uuid)
    (model prompt : String) (i : ℕ) (row : UsageRow) : Prop :=
  ∃ p P resolved response, c.procs p = some P ∧ P.op = .processJob ∧
    deps.env.registry.resolve model = some resolved ∧
    PromptCall job.orgId job.id resolved.provider (promptRequest resolved prompt) i response
      (transcript p c.world.history) ∧
    row.params = ⟨job.orgId, apiKeyId, resolved.providerModel, response.usage,
      jobRequestId job.id i⟩ ∧
    computeCostUsd resolved.providerModel response.usage = some row.costUsd

/-- No prompt is billed twice, what is billed has been answered, and a handler that returns has
billed every prompt. -/
structure PromptsBilledOnce (deps : Deps) (job : JobRow) (apiKeyId : Uuid) (model : String)
    (prompts : List String) (c : GatewayConfig) : Prop where
  once : ∀ i, (c.world.shared.promptRows job.id i).length ≤ 1
  backed : ∀ i, ∀ row ∈ c.world.shared.promptRows job.id i, ∃ prompt, prompts[i]? = some prompt ∧
    BillsPrompt deps c job apiKeyId model prompt i row
  complete : HandlerReturned c job.id → ∀ i < prompts.length, ∃ row,
    c.world.shared.promptRows job.id i = [row] ∧
      c.world.shared.promptEvents job.id i = [(row.params, row.costUsd)]

/-! ### The ids -/

def isJobRequestId (id : String) : Bool := "job:".toList.isPrefixOf id.toList

/-- No provider gives an answer an id that looks like that of a prompt. -/
def ForeignIds (_ : GatewayConfig) : Action sig Pid JobDrift Op → Prop
  | .command e => ((answerOf ⟨e.cmd, e.ans⟩).all fun x => !isJobRequestId x.2.id) = true
  | .start .. | .drift _ => True

instance (c : GatewayConfig) (a : Action sig Pid JobDrift Op) : Decidable (ForeignIds c a) :=
  match a with
  | .command e => inferInstanceAs (Decidable
      (((answerOf ⟨e.cmd, e.ans⟩).all fun x => !isJobRequestId x.2.id) = true))
  | .start .. | .drift _ => isTrue trivial

theorem isJobRequestId_jobRequestId (id : Uuid) (i : ℕ) :
    isJobRequestId (jobRequestId id i) = true := by
  unfold isJobRequestId jobRequestId
  rw [List.isPrefixOf_iff_prefix, String.toList_append, String.toList_append, String.toList_append,
    List.append_assoc, List.append_assoc]
  exact List.prefix_append _ _

/-- The id says of which job and which prompt it is. -/
theorem jobRequestId_inj {a b : Uuid} {i j : ℕ} (h : jobRequestId a i = jobRequestId b j) :
    a = b ∧ i = j := by
  unfold jobRequestId at h
  simp only [String.append_assoc] at h
  obtain ⟨hid, hrest⟩ := Uuid.text_append_inj (append_right_inj h)
  exact ⟨hid, toString_nat_injective (append_right_inj hrest)⟩

/-! ## What a process has done -/

/-- Commands that bill, complete a job, or hand a response on. -/
def Cmd.isReserved : Cmd → Bool
  | .insertUsage .. | .updateJob _ _ (.completed _) | .publish .. | .redisSet _ (.response _) _
  | .redisSetNx _ (.response _) _ | .writeOutboxEvent (.usageRecorded ..) => true
  | _ => false

/-- The row has been read, and the bill is of the answer to one of its prompts. -/
def Prompted (deps : Deps) (params : RecordUsageParams) (t : Transcript sig) : Prop :=
  ∃ orgId id row model prompts apiKeyId resolved i prompt response,
    (⟨.findJob orgId id, .ok (some row)⟩ : Exchange sig) ∈ t ∧
    row.payload = .bulkChat model prompts ∧ row.apiKeyId = some apiKeyId ∧
    deps.env.registry.resolve model = some resolved ∧ prompts[i]? = some prompt ∧
    PromptCall orgId id resolved.provider (promptRequest resolved prompt) i response t ∧
    params = ⟨orgId, apiKeyId, resolved.providerModel, response.usage, jobRequestId id i⟩

/-- The inserts for the prompts below number `n` have been answered, if the job has a key. -/
def Inserted (id : Uuid) (row : JobRow) (n : ℕ) (t : Transcript sig) : Prop :=
  row.apiKeyId.isSome = true → ∀ i < n, ∃ params cost answer,
    params.requestId = jobRequestId id i ∧
      (⟨.insertUsage params cost, .ok answer⟩ : Exchange sig) ∈ t

/-- Every prompt of the row that has been read is billed. -/
def FullyBilled (orgId : OrgId) (id : Uuid) (t : Transcript sig) : Prop :=
  ∃ row, (⟨.findJob orgId id, .ok (some row)⟩ : Exchange sig) ∈ t ∧
    ∀ model prompts, row.payload = .bulkChat model prompts → Inserted id row prompts.length t

def BillRule (deps : Deps) (p : Pid) : Op → Transcript sig → Cmd → Prop
  | .chat input, t, c => Permitted deps p.orgId input t c ∧ c.isJob = false
  | .processJob, t, .insertUsage params cost =>
    Prompted deps params t ∧ cost = computeCostUsd params.model params.usage
  | .processJob, t, .updateJob orgId id (.completed _) => FullyBilled orgId id t
  | _, _, c => c.isReserved = false

section Unreserved

variable {orgId : OrgId} {deps : Deps} {α : Type} {x : Prog α}

/-- The program only issues commands that are nobody's privilege. -/
abbrev Unreserved (x : Prog α) : Prop := Handler.Every (fun c : Cmd => c.isReserved = false) x

theorem isReserved_of_isRoutine {c : Cmd} (h : c.isRoutine = true) : c.isReserved = false := by
  unfold Cmd.isReserved
  split <;> first | rfl | cases h

theorem isReserved_of_isSubmission {c : Cmd} (h : c.isSubmission = true) :
    c.isReserved = false := by
  unfold Cmd.isSubmission at h
  split at h
  · rfl
  · rfl
  · rfl
  · rfl
  · exact isReserved_of_isRoutine h

theorem Routine.unreserved (h : Handler.Every (Routine orgId) x) : Unreserved x :=
  h.mono fun _ hc => isReserved_of_isRoutine hc.2

theorem Submitting.unreserved (h : Handler.Every (Submitting orgId) x) : Unreserved x :=
  h.mono fun _ hc => isReserved_of_isSubmission hc.2

theorem markJobFailed_unreserved (id : Uuid) (message : String) (isFinalAttempt : Bool) :
    Unreserved (markJobFailed id orgId message isFinalAttempt) :=
  Handler.Every.bind (every_command rfl) fun _ => every_command rfl

/-- What is neither a request nor an attempt on a job has no privilege. -/
theorem handler_unreserved (op : Op) (hchat : ∀ input, op ≠ .chat input)
    (hjob : op ≠ .processJob) : Unreserved (handler deps orgId op) := by
  cases op with
  | chat input => exact absurd rfl (hchat input)
  | processJob => exact absurd rfl hjob
  | createJob input =>
    exact (Submitting.unreserved (createJob_submitting orgId deps input)).map _
  | replayJob id => exact (Submitting.unreserved (replayJob_submitting orgId id)).map _
  | cacheStats | deleteCache | abStats | listJobs | getJob =>
    exact Routine.unreserved (handler_routine orgId deps _ rfl)

end Unreserved

/-! ### The worker -/

section Worker

variable {deps : Deps} {p : Pid} {α : Type} {P : Transcript sig → Prop}

theorem billRule_of_unreserved {t : Transcript sig} {c : Cmd} (hc : c.isReserved = false) :
    BillRule deps p .processJob t c := by
  cases c with
  | insertUsage => cases hc
  | updateJob orgId id update =>
    cases update with
    | completed => cases hc
    | _ => exact hc
  | _ => exact hc

/-- What has been done stays done. -/
theorem unreserved_triple {x : Prog α} (hx : Unreserved x) (hP : ∀ t e, P t → P (e :: t)) :
    Handler.Triple (BillRule deps p .processJob) P x (fun _ => P) fun _ _ => True :=
  (Handler.Triple.of_every (P := P) hx (fun _ _ _ hc => billRule_of_unreserved hc)
    fun _ _ _ ht _ => hP _ _ ht).conseq (fun _ h => h) (fun _ _ h => h) fun _ _ _ => trivial

variable {entry : QueueEntry} {row : JobRow}

/-- Commands that no provider answers and that take nothing from the queue. -/
def Cmd.isAside (c : Cmd) : Bool :=
  !c.isReserved && c.isQuiet && match c with
    | .queueTake _ => false
    | _ => true

theorem aside_cons {c : Cmd} {r : sig.Ans c} {t : Transcript sig} (hc : c.isAside = true) :
    takenEntries (⟨c, r⟩ :: t) = takenEntries t ∧ answers (⟨c, r⟩ :: t) = answers t := by
  simp only [Cmd.isAside, Bool.and_eq_true] at hc
  refine ⟨?_, answers_cons_of_isQuiet hc.1.2⟩
  cases c with
  | queueTake orgId => cases hc.2
  | _ => rfl

theorem billRule_of_aside {t : Transcript sig} {c : Cmd} (hc : c.isAside = true) :
    BillRule deps p .processJob t c := by
  simp only [Cmd.isAside, Bool.and_eq_true, Bool.not_eq_true'] at hc
  exact billRule_of_unreserved hc.1.1

def Loaded (entry : QueueEntry) (row : JobRow) (t : Transcript sig) : Prop :=
  (⟨.findJob entry.data.orgId entry.data.jobRecordId, .ok (some row)⟩ : Exchange sig) ∈ t

theorem Inserted.cons {id : Uuid} {n : ℕ} {t : Transcript sig} (h : Inserted id row n t)
    (e : Exchange sig) : Inserted id row n (e :: t) := by
  intro hkey i hi
  obtain ⟨params, cost, answer, hid, hmem⟩ := h hkey i hi
  exact ⟨params, cost, answer, hid, List.mem_cons_of_mem _ hmem⟩

/-- One more prompt is billed. -/
theorem Inserted.succ {id : Uuid} {n : ℕ} {t : Transcript sig} {params : RecordUsageParams}
    {cost : Option ℚ} {answer : Bool} (h : Inserted id row n t)
    (hid : params.requestId = jobRequestId id n) :
    Inserted id row (n + 1) (⟨.insertUsage params cost, .ok answer⟩ :: t) := by
  intro hkey i hi
  rcases Nat.lt_succ_iff_lt_or_eq.mp hi with hi | rfl
  · exact h.cons _ hkey i hi
  · exact ⟨params, cost, answer, hid, List.mem_cons_self⟩

/-- An attempt with the entry has read the row, has called for `calls` prompts and has billed the
prompts below number `n`. -/
structure Reached (entry : QueueEntry) (row : JobRow) (calls n : ℕ) (t : Transcript sig) :
    Prop where
  taken : takenEntries t = [entry]
  loaded : Loaded entry row t
  called : (answers t).length = calls
  inserted : Inserted entry.data.jobRecordId row n t

/-- What is done on the side keeps what has been reached. -/
theorem aside_triple {calls n : ℕ} {x : Prog α}
    (hx : Handler.Every (fun c : Cmd => c.isAside = true) x) :
    Handler.Triple (BillRule deps p .processJob) (Reached entry row calls n) x
      (fun _ => Reached entry row calls n) fun _ _ => True := by
  refine (Handler.Triple.of_every (P := Reached entry row calls n) hx
    (fun _ _ _ hc => billRule_of_aside hc) fun t c r h hc => ?_).conseq (fun _ h => h)
      (fun _ _ h => h) fun _ _ _ => trivial
  obtain ⟨htaken, hanswers⟩ := aside_cons (r := r) (t := t) hc
  exact ⟨htaken.trans h.taken, List.mem_cons_of_mem _ h.loaded, hanswers ▸ h.called,
    h.inserted.cons _⟩

theorem reportProgress_aside (ctx : JobHandlerContext) (done total : ℕ) :
    Handler.Every (fun c : Cmd => c.isAside = true) (reportProgress deps ctx done total) :=
  Handler.Every.bind (every_command rfl) fun _ => every_command rfl

theorem embedFrom_aside (ctx : JobHandlerContext) (total i : ℕ) (texts : List String) :
    Handler.Every (fun c : Cmd => c.isAside = true) (embedFrom deps ctx total i texts) := by
  induction texts generalizing i with
  | nil => exact Handler.every_pure _
  | cons text texts ih =>
    exact Handler.Every.bind (every_command rfl) fun _ =>
      (reportProgress_aside ctx _ _).bind fun _ => (ih _).bind fun _ => Handler.every_pure _

section Prompts

variable {model : String} {prompts : List String} {resolved : ResolvedModel}
  (hpayload : row.payload = .bulkChat model prompts)
  (hresolve : deps.env.registry.resolve model = some resolved)

/-- The provider answers the call for one prompt. -/
theorem chat_reached (i : ℕ) (prompt : String) :
    Handler.Triple (BillRule deps p .processJob) (Reached entry row i i)
      (command (.chat resolved.provider (promptRequest resolved prompt)))
      (fun response t => Reached entry row (i + 1) i t ∧
        PromptCall entry.data.orgId entry.data.jobRecordId resolved.provider
          (promptRequest resolved prompt) i response t) fun _ _ => True := by
  refine command_triple (fun _ _ => rfl) (fun t response h => ?_) fun _ _ _ => trivial
  have hcalled : (answers (⟨.chat resolved.provider (promptRequest resolved prompt),
      .ok response⟩ :: t)).length = i + 1 := by
    rw [answers_cons, List.length_append, h.called]
    exact Nat.add_comm 1 i
  exact ⟨⟨h.taken, List.mem_cons_of_mem _ h.loaded, hcalled, h.inserted.cons _⟩, entry, t, h.taken,
    rfl, rfl, h.called, List.suffix_rfl⟩

include hpayload hresolve

/-- The bill of one prompt, which is at hand when the provider has answered. -/
theorem billJobUsage_reached {i : ℕ} {prompt : String} (hprompt : prompts[i]? = some prompt)
    (response : ChatResponse) :
    Handler.Triple (BillRule deps p .processJob)
      (fun t => Reached entry row (i + 1) i t ∧
        PromptCall entry.data.orgId entry.data.jobRecordId resolved.provider
          (promptRequest resolved prompt) i response t)
      (billJobUsage ⟨entry.data.jobRecordId, entry.data.orgId, row.apiKeyId⟩
        resolved.providerModel i response.usage)
      (fun _ => Reached entry row (i + 1) (i + 1)) fun _ _ => True := by
  unfold billJobUsage
  dsimp only
  split
  · rename_i hkey
    -- without a key nothing is billed, and nothing has to be
    refine .pure fun t h => { h.1 with inserted := fun hsome => ?_ }
    rw [hkey] at hsome
    cases hsome
  · rename_i apiKeyId hkey
    refine Handler.Triple.bind (Q := fun _ => Reached entry row (i + 1) (i + 1)) ?_
      fun _ => .pure fun _ h => h
    refine command_triple (fun t h => ⟨?_, rfl⟩) (fun t answer h => ?_) fun _ _ _ => trivial
    · exact ⟨_, _, row, model, prompts, apiKeyId, resolved, i, prompt, response, h.1.loaded,
        hpayload, hkey, hresolve, hprompt, h.2, rfl⟩
    · exact ⟨h.1.taken, List.mem_cons_of_mem _ h.1.loaded, h.1.called, h.1.inserted.succ rfl⟩

/-- The prompts from number `i` on are billed one after the other. -/
theorem chatFrom_reached (total i : ℕ) {rest : List String} (hrest : prompts.drop i = rest) :
    Handler.Triple (BillRule deps p .processJob) (Reached entry row i i)
      (chatFrom deps ⟨entry.data.jobRecordId, entry.data.orgId, row.apiKeyId⟩ resolved total i rest)
      (fun _ => Reached entry row (i + rest.length) (i + rest.length)) fun _ _ => True := by
  induction rest generalizing i with
  | nil => exact .pure fun _ h => h
  | cons prompt rest ih =>
    have hprompt : prompts[i]? = some prompt := by
      rw [← List.head?_drop, hrest, List.head?_cons]
    have htail : prompts.drop (i + 1) = rest := by
      rw [← List.tail_drop, hrest, List.tail_cons]
    refine (chat_reached i prompt).bind fun response => ?_
    refine (billJobUsage_reached hpayload hresolve hprompt response).bind fun _ => ?_
    refine (aside_triple (reportProgress_aside _ _ _)).bind fun _ => ?_
    have hlength : i + (prompt :: rest).length = i + 1 + rest.length := by
      rw [List.length_cons]
      omega
    rw [hlength]
    exact (ih (i + 1) htail).bind fun _ => .pure fun _ h => h

end Prompts

theorem runHandler_bills : Handler.Triple (BillRule deps p .processJob) (Reached entry row 0 0)
    (runHandler deps ⟨entry.data.jobRecordId, entry.data.orgId, row.apiKeyId⟩ row.payload)
    (fun _ => FullyBilled entry.data.orgId entry.data.jobRecordId) fun _ _ => True := by
  cases hpayload : row.payload with
  | batchEmbeddings texts =>
    refine (aside_triple (embedFrom_aside _ _ _ _)).bind fun _ =>
      .pure fun _ h => ⟨row, h.loaded, fun model prompts hbulk => ?_⟩
    cases hpayload.symm.trans hbulk
  | bulkChat model prompts =>
    unfold runHandler
    dsimp only
    split
    · exact .throw fun _ _ => trivial
    · rename_i resolved hresolve
      refine (chatFrom_reached hpayload hresolve _ 0 rfl).bind fun _ => .pure fun _ h => ?_
      refine ⟨row, h.loaded, fun model' prompts' hbulk => ?_⟩
      cases hpayload.symm.trans hbulk
      exact Nat.zero_add prompts.length ▸ h.inserted

theorem runJob_bills (entry : QueueEntry) : Handler.Triple (BillRule deps p .processJob)
    (fun t => takenEntries t = [entry] ∧ answers t = []) (runJob deps entry) (fun _ _ => True)
    fun _ _ => True := by
  have hrunning : Handler.Every (fun c : Cmd => c.isAside = true)
      (markJobRunning entry.data.jobRecordId entry.data.orgId (entry.attemptsMade + 1)) :=
    Handler.Every.bind (every_command rfl) fun _ => every_command rfl
  refine Handler.Triple.bind (Q := fun _ t => takenEntries t = [entry] ∧ answers t = []) ?_
    fun _ => ?_
  · refine (Handler.Triple.of_every hrunning (fun _ _ _ hc => billRule_of_aside hc)
      fun t c r ht hc => ?_).conseq (fun _ h => h) (fun _ _ h => h) fun _ _ _ => trivial
    obtain ⟨htaken, hanswers⟩ := aside_cons (r := r) (t := t) hc
    exact ⟨htaken.trans ht.1, hanswers.trans ht.2⟩
  refine Handler.Triple.bind (Q := fun found t => ∀ row, found = some row →
    Reached entry row 0 0 t) ?_ fun found => ?_
  · refine command_triple (fun _ _ => rfl) (fun t found h => ?_) fun _ _ _ => trivial
    rintro row rfl
    exact ⟨h.1, List.mem_cons_self, congrArg List.length h.2,
      fun _ i hi => absurd hi (Nat.not_lt_zero i)⟩
  · cases found with
    | none => exact .throw fun _ _ => trivial
    | some row =>
      refine (runHandler_bills.conseq (fun _ h => h row rfl) (fun _ _ h => h) fun _ _ h => h).bind
        fun result => ?_
      refine Handler.Triple.bind (Q := fun _ _ => True) ?_ fun _ =>
        command_triple (fun _ _ => rfl) (fun _ _ _ => trivial) fun _ _ _ => trivial
      refine Handler.Triple.bind (Q := fun _ _ => True) ?_ fun done => ?_
      · exact command_triple (fun _ h => h) (fun _ _ _ => trivial) fun _ _ _ => trivial
      · cases done with
        | true => exact .pure fun _ h => h
        | false => exact .throw fun _ _ => trivial

theorem processJob_bills : Handler.Triple (BillRule deps p .processJob) (fun t => t = [])
    (processJob deps p.orgId) (fun _ _ => True) fun _ _ => True := by
  refine Handler.Triple.bind
    (Q := fun entry t => takenEntries t = [entry.1] ∧ answers t = []) ?_ fun taken => ?_
  · refine command_triple (fun _ _ => rfl) (fun t taken h => ?_) fun _ _ _ => trivial
    rw [h]
    exact ⟨rfl, rfl⟩
  · obtain ⟨entry, -⟩ := taken
    refine Handler.Triple.bind (Q := fun _ _ => True) ?_ fun result => ?_
    · refine (settle_triple (runJob_bills entry)).conseq (fun _ h => h) (fun _ _ _ => trivial)
        fun _ _ h => h
    · cases result with
      | ok a => exact command_triple (fun _ _ => rfl) (fun _ _ _ => trivial) fun _ _ _ => trivial
      | error err =>
        refine Handler.Triple.bind (Q := fun _ _ => True) ?_ fun _ => ?_
        · exact command_triple (fun _ _ => rfl) (fun _ _ _ => trivial) fun _ _ _ => trivial
        · exact unreserved_triple (P := fun _ => True) ((every_settle
            (markJobFailed_unreserved _ _ _)).bind fun _ => Handler.every_pure _) fun _ _ h => h

end Worker

/-- Every process follows the rule of its operation. -/
theorem obeys_billRule (deps : Deps) :
    (stalling deps).Obeys (BillRule deps) fun _ _ _ _ => True := by
  intro p op
  have hother : (∀ input, op ≠ .chat input) → op ≠ .processJob →
      (handler deps p.orgId op).run.Follows (fun _ (c : Cmd) => c.isReserved = false)
        (fun _ _ => True) [] := fun hchat hjob =>
    (Program.Triple.of_every (P := fun _ => True) (handler_unreserved op hchat hjob)
      (fun _ _ _ hc => hc) fun _ _ _ _ _ => trivial) [] trivial
  cases op with
  | chat input =>
    have hrule : (chat deps p.orgId input).run.Follows (BillRule deps p (.chat input))
        (fun _ _ => True) [] :=
      ((chat_rule deps p.orgId input).and_every (chat_requesting p.orgId deps input)).mono
        (fun _ _ h => ⟨h.1.1, h.2.2⟩) fun _ _ _ => trivial
    show (some <$> chat deps p.orgId input).run.Follows _ _ _
    rw [map_eq_pure_bind]
    refine hrule.bind fun r t _ => ?_
    cases r <;> trivial
  | processJob =>
    have hbind : Handler.Triple (BillRule deps p .processJob) (fun t => t = [])
        (processJob deps p.orgId >>= fun _ => pure none : Prog (Option Reply)) (fun _ _ => True)
        fun _ _ => True :=
      processJob_bills.bind fun _ => .pure fun _ h => h
    refine (hbind [] rfl).mono (fun _ _ h => h) fun r t _ => ?_
    cases r <;> trivial
  | cacheStats | deleteCache | abStats | createJob | listJobs | getJob | replayJob =>
    exact hother (fun _ h => nomatch h) fun h => nomatch h

/-! ## The rows of the jobs -/

/-- What is submitted with a job, and never changes. -/
structure Submission where
  id : Uuid
  orgId : OrgId
  apiKeyId : Option Uuid
  payload : JobPayload
  deriving DecidableEq

def JobRow.submission (row : JobRow) : Submission :=
  ⟨row.id, row.orgId, row.apiKeyId, row.payload⟩

def Store.submissions (s : Store) : List Submission := s.jobs.map JobRow.submission

theorem JobUpdate.submission_apply (update : JobUpdate) (now : ℤ) (row : JobRow) :
    (update.apply now row).submission = row.submission := by
  cases update <;> rfl

section Submissions

variable {similarity : List ℚ → List ℚ → ℚ} {p : Pid} {cmd : sig.Cmd} {i : Input}
  {r : sig.Ans cmd} {s s' : Store}

theorem submissions_updateJob (s : Store) (orgId : OrgId) (id : Uuid) (update : JobUpdate) :
    (s.updateJob orgId id update).2.submissions = s.submissions := by
  unfold Store.updateJob
  split
  · rfl
  · show (s.jobs.map _).map JobRow.submission = s.jobs.map JobRow.submission
    rw [List.map_map]
    refine List.map_congr_left fun row _ => ?_
    simp only [Function.comp_apply]
    split
    · exact update.submission_apply s.clock row
    · rfl

theorem submissions_of_effect (h : s.Effect cmd s')
    (hc : ∀ orgId apiKeyId payload priority, cmd ≠ .createJobRow orgId apiKeyId payload priority) :
    s'.submissions = s.submissions ∧ s.drawn ⊆ s'.drawn := by
  cases h with
  | createJobRow id orgId apiKeyId payload priority => exact absurd rfl (hc _ _ _ _)
  | updateJob orgId id update =>
    refine ⟨submissions_updateJob s orgId id update, ?_⟩
    unfold Store.updateJob
    split <;> exact fun _ h => h
  | draw => exact ⟨rfl, List.subset_cons_self _ _⟩
  | _ => exact ⟨rfl, fun _ h => h⟩

/-- A command adds one job, under an id that is drawn for it, or none. -/
theorem submissions_of_exec (h : exec similarity p cmd i s = some (r, s')) :
    s'.submissions = s.submissions ∧ s.drawn ⊆ s'.drawn ∨
      ∃ x : Submission, s'.submissions = s.submissions ++ [x] ∧ x.id.text ∉ s.drawn ∧
        s'.drawn = x.id.text :: s.drawn := by
  cases cmd with
  | createJobRow orgId apiKeyId payload priority =>
    have hperform : ∀ {r'}, s.perform similarity (.createJobRow orgId apiKeyId payload priority)
        i.choice = some (r', s') → ∃ x : Submission, s'.submissions = s.submissions ++ [x] ∧
          x.id.text ∉ s.drawn ∧ s'.drawn = x.id.text :: s.drawn := by
      intro r' h
      simp only [Store.perform] at h
      split at h
      · rename_i id _
        split at h
        · cases h
        · rename_i hfresh
          cases h
          exact ⟨(s.newJob id orgId apiKeyId payload priority).submission,
            List.map_append.trans rfl, hfresh, rfl⟩
      · cases h
    rcases exec_cases h with h | ⟨err, -, rfl | ⟨r', h⟩⟩
    · exact .inr (hperform h)
    · exact .inl ⟨rfl, fun _ h => h⟩
    · exact .inr (hperform h)
  | _ =>
    exact .inl (submissions_of_effect (effect_of_exec (p := p) h) fun _ _ _ _ heq => by cases heq)

end Submissions

/-- The rows have different ids, and what has been read of one is still so. -/
structure Registered (w : GatewayWorld) : Prop where
  drawn : ∀ x ∈ w.shared.submissions, x.id.text ∈ w.shared.drawn
  unique : (w.shared.submissions.map Submission.id).Nodup
  read : ∀ p orgId id row, ⟨p, .findJob orgId id, .ok (some row)⟩ ∈ w.history →
    row.submission ∈ w.shared.submissions ∧ row.orgId = orgId ∧ row.id = id

section Registered

variable {w : GatewayWorld} {s : Store}

theorem Registered.of_eq (hr : Registered w) (hsub : s.submissions = w.shared.submissions)
    (hdrawn : s.drawn = w.shared.drawn) : Registered ⟨s, w.history⟩ where
  drawn x hx := hdrawn ▸ hr.drawn x (hsub ▸ hx)
  unique := by
    show (s.submissions.map _).Nodup
    rw [hsub]
    exact hr.unique
  read p orgId id row h := by
    obtain ⟨hmem, hrest⟩ := hr.read p orgId id row h
    exact ⟨hsub ▸ hmem, hrest⟩

theorem find_of_exec {similarity : List ℚ → List ℚ → ℚ} {p : Pid} {orgId : OrgId} {id : Uuid}
    {i : Input} {row : JobRow} {s' : Store}
    (h : exec similarity p (.findJob orgId id) i s = some (.ok (some row), s')) :
    (row ∈ s.jobs ∧ row.orgId = orgId ∧ row.id = id) ∧ s' = s := by
  have hperform := perform_of_exec h
  simp only [Store.perform, Option.some.injEq, Prod.mk.injEq, Except.ok.injEq] at hperform
  exact ⟨find_jobsOf hperform.1, hperform.2.symm⟩

theorem Registered.command (hr : Registered w) {similarity : List ℚ → List ℚ → ℚ} {p : Pid}
    {cmd : sig.Cmd} {i : Input} {r : sig.Ans cmd}
    (hx : exec similarity p cmd i w.shared = some (r, s)) :
    Registered (w.after ⟨p, cmd, r⟩ s) := by
  have hsub := submissions_of_exec (p := p) hx
  have hkept : ∀ {x}, x ∈ w.shared.submissions → x ∈ s.submissions := by
    rintro x hx
    rcases hsub with ⟨heq, -⟩ | ⟨y, heq, -⟩
    · exact heq ▸ hx
    · exact heq ▸ List.mem_append_left _ hx
  refine ⟨fun x hx => ?_, ?_, fun q orgId id row hmem => ?_⟩
  · rcases hsub with ⟨heq, hdrawn⟩ | ⟨y, heq, -, hdrawn⟩
    · exact hdrawn (hr.drawn x (heq ▸ hx))
    · have hx' : x ∈ w.shared.submissions ++ [y] := heq ▸ hx
      show x.id.text ∈ s.drawn
      rw [hdrawn]
      rcases List.mem_append.mp hx' with hx' | hx'
      · exact List.mem_cons_of_mem _ (hr.drawn x hx')
      · rw [List.mem_singleton.mp hx']
        exact List.mem_cons_self
  · rcases hsub with ⟨heq, -⟩ | ⟨y, heq, hfresh, -⟩
    · exact heq ▸ hr.unique
    · show (s.submissions.map _).Nodup
      rw [heq, List.map_append, List.nodup_append]
      refine ⟨hr.unique, List.nodup_singleton _, fun id hid id' hid' hids => hfresh ?_⟩
      obtain ⟨x, hmem, rfl⟩ := List.mem_map.mp hid
      rw [← List.mem_singleton.mp hid', ← hids]
      exact hr.drawn x hmem
  · rcases List.mem_cons.mp hmem with heq | hold
    · cases heq
      obtain ⟨⟨hrow, hrest⟩, rfl⟩ := find_of_exec (p := p) hx
      exact ⟨List.mem_map_of_mem hrow, hrest⟩
    · obtain ⟨hrow, hrest⟩ := hr.read q orgId id row hold
      exact ⟨hkept hrow, hrest⟩

end Registered

/-! ## The responses that are handed on -/

/-- The command hands the response on. -/
def Cmd.Shares (response : ChatResponse) : Cmd → Prop
  | .redisSet _ (.response r) _ | .redisSetNx _ (.response r) _ | .publish _ (some r) =>
    r = response
  | _ => False

/-- Every response that a provider has given, and every one that Redis holds or has handed out, is a
`G`. -/
structure Responses (G : ChatResponse → Prop) (w : GatewayWorld) : Prop where
  answered : ∀ x ∈ answersIn w.history, G x.2.2
  stored : ∀ key response, w.shared.value key = some (.response response) → G response
  published : ∀ channel response, some response ∈ w.shared.published channel → G response
  got : ∀ p key response, ⟨p, .redisGet key, .ok (some (.response response))⟩ ∈ w.history →
    G response
  told : ∀ p channel since response,
    ⟨p, .awaitMessage channel since, .ok (some (some response))⟩ ∈ w.history → G response

section Responses

variable {G : ChatResponse → Prop} {w : GatewayWorld} {s : Store}

theorem Responses.drift (hi : Responses G w) {e : Drift} (hx : drift e w.shared = some s) :
    Responses G ⟨s, w.history⟩ :=
  { hi with
    stored := fun key response hv => hi.stored key response (value_of_drift hx hv)
    published := fun channel response hm =>
      hi.published channel response (published_of_drift hx ▸ hm) }

/-- A command hands on what is a `G` already. -/
theorem Responses.command (hi : Responses G w) {similarity : List ℚ → List ℚ → ℚ} {p : Pid}
    {cmd : sig.Cmd} {i : Input} {r : sig.Ans cmd}
    (hanswer : ∀ x, answerOf ⟨cmd, r⟩ = some x → G x.2)
    (hshares : ∀ response, cmd.Shares response → G response)
    (hx : exec similarity p cmd i w.shared = some (r, s)) :
    Responses G (w.after ⟨p, cmd, r⟩ s) := by
  have heffect := effect_of_exec (p := p) hx
  refine ⟨fun x hmem => ?_, fun key response hv => ?_, fun channel response hm => ?_,
    fun q key response hmem => ?_, fun q channel since response hmem => ?_⟩
  · rw [World.after_history, answersIn_cons] at hmem
    rcases List.mem_append.mp hmem with hnew | hold
    · obtain ⟨y, hy, rfl⟩ := Option.map_eq_some_iff.mp (Option.mem_toList.mp hnew)
      exact hanswer y hy
    · exact hi.answered x hold
  · rcases value_of_effect heffect hv with hold | ⟨ttlMs, rfl⟩ | ⟨ttlMs, rfl⟩ | ⟨n, hn⟩
    · exact hi.stored key response hold
    · exact hshares response rfl
    · exact hshares response rfl
    · cases hn
  · rcases published_of_effect heffect hm with hold | rfl
    · exact hi.published channel response hold
    · exact hshares response rfl
  · rcases List.mem_cons.mp hmem with heq | hold
    · cases heq
      exact hi.stored key response (value_of_redisGet (p := p) hx)
    · exact hi.got q key response hold
  · rcases List.mem_cons.mp hmem with heq | hold
    · cases heq
      exact hi.published channel response (published_of_awaitMessage (p := p) hx)
    · exact hi.told q channel since response hold

/-- Whatever a request has obtained, it has obtained from the provider or from Redis. -/
theorem Responses.of_obtained (hi : Responses G w) {deps : Deps} {p : Pid} {input : ChatInput}
    {model : String} {response : ChatResponse} {h : List GatewayEvent} (hle : h <:+ w.history)
    (ho : Obtained deps p.orgId input model response (transcript p h)) : G response := by
  cases ho with
  | answered req hm hms hmem =>
    exact hi.answered _ (mem_answersIn_of_suffix hle (mem_answersIn.mpr hmem))
  | stored hmem => exact hi.got p _ _ (hle.subset (mem_transcript.mp hmem))
  | told since hmem => exact hi.told p _ since _ (hle.subset (mem_transcript.mp hmem))

end Responses

section Rules

variable {deps : Deps} {p : Pid} {op : Op} {t : Transcript sig}

/-- No process reports usage without recording it. -/
theorem BillRule.not_usageEvent {cmd : Cmd} (h : BillRule deps p op t cmd)
    (params : RecordUsageParams) (cost : ℚ) :
    cmd ≠ .writeOutboxEvent (.usageRecorded params cost) := by
  rintro rfl
  cases op with
  | chat input => exact h.1
  | _ => cases h

/-- Only answers of providers are handed on. -/
theorem BillRule.answered {cmd : Cmd} {response : ChatResponse} (h : BillRule deps p op t cmd)
    (hs : cmd.Shares response) : ∃ req, (req, response) ∈ answers t := by
  have hreserved : cmd.isReserved = true := by
    unfold Cmd.Shares at hs
    split at hs <;> first | rfl | exact nomatch hs
  have hbill : ∀ params cost, cmd ≠ .insertUsage params cost := by
    rintro params cost rfl
    exact hs
  have hcomplete : ∀ orgId id update, cmd ≠ .updateJob orgId id update := by
    rintro orgId id update rfl
    exact hs
  cases op with
  | chat input =>
    have hperm := h.1
    unfold Cmd.Shares at hs
    split at hs
    · obtain ⟨name, -, req, hmem, -⟩ := hperm
      exact ⟨req, hs ▸ hmem⟩
    · exact hperm.elim
    · obtain ⟨name, -, req, hmem, -⟩ := hperm
      exact ⟨req, hs ▸ hmem⟩
    · exact hs.elim
  | processJob =>
    cases cmd with
    | insertUsage params cost => exact absurd rfl (hbill params cost)
    | updateJob orgId id update => exact absurd rfl (hcomplete orgId id update)
    | _ => cases hreserved.symm.trans h
  | _ => cases hreserved.symm.trans h

/-- A job is completed by a worker that has billed every prompt. -/
theorem BillRule.fullyBilled {orgId : OrgId} {id : Uuid} {result : JobResult}
    (h : BillRule deps p op t (.updateJob orgId id (.completed result))) :
    FullyBilled orgId id t := by
  cases op with
  | processJob => exact h
  | chat input => cases h.2
  | _ => cases h

end Rules

/-! ## Every run -/

structure Audited (w : GatewayWorld) : Prop where
  books : Books w
  registered : Registered w
  responses : Responses (fun response => isJobRequestId response.id = false) w

section Runs

variable {deps : Deps} {c d : GatewayConfig} {a : Action sig Pid JobDrift Op}

theorem audited_init (organizations : OrgId → Option OrgRow) (billingPlans : String → Option ℚ) :
    Audited ⟨.fresh organizations billingPlans, []⟩ where
  books := books_init _ rfl rfl
  registered := ⟨fun _ h => absurd h List.not_mem_nil, List.nodup_nil,
    fun _ _ _ _ h => absurd h List.not_mem_nil⟩
  responses :=
    { answered := fun _ h => absurd h List.not_mem_nil
      stored := fun _ _ h => nomatch h
      published := fun _ _ h => absurd h List.not_mem_nil
      got := fun _ _ _ h => absurd h List.not_mem_nil
      told := fun _ _ _ _ h => absurd h List.not_mem_nil }

theorem Audited.jobDrift {w : GatewayWorld} {s : Store} (hi : Audited w) {e : JobDrift}
    (hx : jobDrift e w.shared = some s) : Audited ⟨s, w.history⟩ := by
  cases e with
  | other e =>
    obtain ⟨hrows, hevents⟩ := usageEvents_of_drift hx
    have hjobs : s.submissions = w.shared.submissions ∧ s.drawn = w.shared.drawn := by
      cases e <;> cases hx <;> exact ⟨rfl, rfl⟩
    exact ⟨hi.books.of_eq hrows hevents, hi.registered.of_eq hjobs.1 hjobs.2,
      hi.responses.drift hx⟩
  | stall entry =>
    unfold CloudMesh.Gateway.jobDrift at hx
    dsimp only at hx
    split at hx
    · cases hx
      exact ⟨hi.books.of_eq rfl rfl, hi.registered.of_eq rfl rfl, { hi.responses with }⟩
    · cases hx

theorem audited_step (hconf : System.Conforms (BillRule deps) (fun _ _ _ _ => True) c)
    (hi : Audited c.world) (hal : ForeignIds c a) (hstep : (stalling deps).Steps c a d) :
    Audited d.world := by
  cases hstep with
  | start => exact hi
  | drift hx => exact hi.jobDrift hx
  | @command p i P cmd k r s hp hk hx =>
    have hrule := hconf.allowed hp hk
    have hforeign : ∀ x, answerOf ⟨cmd, r⟩ = some x → isJobRequestId x.2.id = false := by
      intro x hx
      unfold ForeignIds at hal
      dsimp only at hal
      rw [hx] at hal
      simpa using hal
    refine ⟨hi.books.command (p := p) hrule.not_usageEvent hx,
      hi.registered.command (p := p) hx,
      hi.responses.command (p := p) hforeign (fun response hs => ?_) hx⟩
    obtain ⟨req, hmem⟩ := hrule.answered hs
    exact hi.responses.answered _ (mem_answersIn.mpr hmem)

section Assembly

variable (hconf : System.Conforms (BillRule deps) (fun _ _ _ _ => True) c)
  (hi : Audited c.world)

include hi

/-- Nobody else's row has the id of a job. -/
theorem Audited.eq_of_read {job row : JobRow} (hjob : job ∈ c.world.shared.jobs) {p : Pid}
    {orgId : OrgId} (hread : ⟨p, .findJob orgId job.id, .ok (some row)⟩ ∈ c.world.history) :
    row.submission = job.submission := by
  obtain ⟨hmem, -, hid⟩ := hi.registered.read _ _ _ _ hread
  exact List.inj_on_of_nodup_map hi.registered.unique hmem (List.mem_map_of_mem hjob) hid

theorem Audited.promptRows_eq {row : UsageRow} {id : Uuid} {n : ℕ}
    (hrow : row ∈ c.world.shared.usageRecords) (hid : row.params.requestId = jobRequestId id n) :
    c.world.shared.promptRows id n = [row] :=
  filter_eq_singleton hi.books.unique hrow hid

theorem Audited.promptEvents_eq {row : UsageRow} {id : Uuid} {n : ℕ}
    (hrows : c.world.shared.promptRows id n = [row]) :
    c.world.shared.promptEvents id n = [(row.params, row.costUsd)] := by
  have hsingle : [(row.params, row.costUsd)] =
      [row].map fun row : UsageRow => (row.params, row.costUsd) := rfl
  unfold Store.promptEvents
  rw [hi.books.events, List.filter_map, hsingle, ← hrows]
  rfl

theorem Audited.once (id : Uuid) (n : ℕ) : (c.world.shared.promptRows id n).length ≤ 1 := by
  cases hrows : c.world.shared.promptRows id n with
  | nil => exact Nat.zero_le 1
  | cons row rest =>
    have hmem : row ∈ c.world.shared.promptRows id n := hrows ▸ List.mem_cons_self
    obtain ⟨hrow, hid⟩ := List.mem_filter.mp hmem
    rw [← hrows, hi.promptRows_eq hrow (of_decide_eq_true hid), List.length_singleton]

include hconf

/-- A row with the id of a prompt has been inserted by a worker that has called for this prompt. -/
theorem Audited.backed {job : JobRow} {apiKeyId : Uuid} {model : String} {prompts : List String}
    (hjob : job ∈ c.world.shared.jobs) (hpayload : job.payload = .bulkChat model prompts)
    (hkey : job.apiKeyId = some apiKeyId) {n : ℕ} {row : UsageRow}
    (hrow : row ∈ c.world.shared.promptRows job.id n) :
    ∃ prompt, prompts[n]? = some prompt ∧ BillsPrompt deps c job apiKeyId model prompt n row := by
  obtain ⟨hrow, hid⟩ := List.mem_filter.mp hrow
  replace hid := of_decide_eq_true hid
  obtain ⟨p, answer, hmem⟩ := hi.books.inserted row hrow
  obtain ⟨P, hist, hP, hsuf, hrule⟩ := hconf.exists_of_mem hmem
  have hle : hist <:+ c.world.history := (List.suffix_cons _ _).trans hsuf
  have hin : ∀ {cmd : sig.Cmd} {r : sig.Ans cmd}, (⟨cmd, r⟩ : Exchange sig) ∈ transcript p hist →
      (⟨p, cmd, r⟩ : GatewayEvent) ∈ c.world.history :=
    fun h => hle.subset (mem_transcript.mp h)
  cases hop : P.op with
  | chat input =>
    rw [hop] at hrule
    obtain ⟨-, -, response, hresponse, -, hobtained⟩ := hrule.1
    have hforeign := hi.responses.of_obtained hle hobtained
    rw [← hresponse, hid, isJobRequestId_jobRequestId] at hforeign
    cases hforeign
  | processJob =>
    rw [hop] at hrule
    obtain ⟨⟨orgId, id, read, model', prompts', apiKeyId', resolved, i, prompt, response, hread,
      hpayload', hkey', hresolve, hprompt, hcall, hparams⟩, hcost⟩ := hrule
    obtain ⟨rfl, rfl⟩ : id = job.id ∧ i = n := by
      rw [hparams] at hid
      exact jobRequestId_inj hid
    have hsame := hi.eq_of_read hjob (hin hread)
    have hpay : read.payload = job.payload := congrArg Submission.payload hsame
    have hkeys : read.apiKeyId = job.apiKeyId := congrArg Submission.apiKeyId hsame
    have horgs : read.orgId = job.orgId := congrArg Submission.orgId hsame
    obtain ⟨rfl, rfl⟩ := JobPayload.bulkChat.inj (hpayload'.symm.trans (hpay.trans hpayload))
    obtain rfl := Option.some.inj (hkey'.symm.trans (hkeys.trans hkey))
    have horg : orgId = job.orgId :=
      (hi.registered.read _ _ _ _ (hin hread)).2.1.symm.trans horgs
    obtain ⟨entry, t', htaken, hentry, hjobId, hcalls, hsuffix⟩ := hcall
    refine ⟨prompt, hprompt, p, P, resolved, response, hP, hop, hresolve, ?_, ?_, ?_⟩
    · exact ⟨entry, t', htaken, hentry.trans horg, hjobId, hcalls,
        hsuffix.trans (transcript_suffix hle)⟩
    · rw [hparams, horg]
    · rw [hparams] at hcost
      exact hcost.symm
  | cacheStats | deleteCache | abStats | createJob | listJobs | getJob | replayJob =>
    rw [hop] at hrule
    cases hrule

omit hi in
/-- Whoever has come to the end of the handler has billed every prompt of the row it has read. -/
theorem fullyBilled_of_handlerReturned {id : Uuid} (h : HandlerReturned c id) :
    ∃ p orgId hist, hist <:+ c.world.history ∧ FullyBilled orgId id (transcript p hist) := by
  obtain ⟨p, P, hP, orgId, result, ⟨k, hk⟩ | ⟨answer, hmem⟩⟩ := h
  · exact ⟨p, orgId, c.world.history, List.suffix_rfl, (hconf.allowed hP hk).fullyBilled⟩
  · obtain ⟨P', hist, -, hsuf, hrule⟩ := hconf.exists_of_mem hmem
    exact ⟨p, orgId, hist, (List.suffix_cons _ _).trans hsuf, BillRule.fullyBilled hrule⟩

theorem Audited.complete {job : JobRow} {apiKeyId : Uuid} {model : String}
    {prompts : List String} (hjob : job ∈ c.world.shared.jobs)
    (hpayload : job.payload = .bulkChat model prompts) (hkey : job.apiKeyId = some apiKeyId)
    (hret : HandlerReturned c job.id) {n : ℕ} (hn : n < prompts.length) :
    ∃ row, c.world.shared.promptRows job.id n = [row] ∧
      c.world.shared.promptEvents job.id n = [(row.params, row.costUsd)] := by
  obtain ⟨p, orgId, hist, hle, read, hread, hbilled⟩ := fullyBilled_of_handlerReturned hconf hret
  have hsame := hi.eq_of_read hjob (hle.subset (mem_transcript.mp hread))
  have hpay : read.payload = job.payload := congrArg Submission.payload hsame
  have hkeys : read.apiKeyId = job.apiKeyId := congrArg Submission.apiKeyId hsame
  have hsome : read.apiKeyId.isSome = true := by
    rw [hkeys, hkey]
    rfl
  obtain ⟨params, cost, answer, hid, hmem⟩ :=
    hbilled model prompts (hpay.trans hpayload) hsome n hn
  obtain ⟨row, hrow, hrid⟩ :=
    hi.books.recorded p params cost answer (hle.subset (mem_transcript.mp hmem))
  have hrows := hi.promptRows_eq hrow (hrid.trans hid)
  exact ⟨row, hrows, hi.promptEvents_eq hrows⟩

end Assembly

/-- In every run, with any number of attempts at a job, failed ones, stalled ones and replays among
them, each prompt of the job is billed at most once, for a call that has resolved, and exactly once
when the handler has returned. -/
theorem promptsBilledOnce (deps : Deps) (organizations : OrgId → Option OrgRow)
    (billingPlans : String → Option ℚ) (ls : List (Label Pid Input JobDrift Op))
    (c : GatewayConfig)
    (hrun : (stalling deps).run (.init (.fresh organizations billingPlans)) ls = some c)
    (hids : (stalling deps).Along ForeignIds (.init (.fresh organizations billingPlans)) ls)
    (job : JobRow) (hjob : job ∈ c.world.shared.jobs) (apiKeyId : Uuid) (model : String)
    (prompts : List String) (hpayload : job.payload = .bulkChat model prompts)
    (hkey : job.apiKeyId = some apiKeyId) :
    PromptsBilledOnce deps job apiKeyId model prompts c := by
  have hconf := System.conforms_run (obeys_billRule deps) hrun
  have hi : Audited c.world :=
    System.invariant_run (I := fun c => Audited c.world) (obeys_billRule deps)
      (fun _ _ _ hconf hi ha hstep => audited_step hconf hi ha hstep)
      (System.conforms_init _) (audited_init organizations billingPlans) hrun hids
  exact ⟨hi.once job.id, fun n row hrow => hi.backed hconf hjob hpayload hkey hrow,
    fun hret n hn => hi.complete hconf hjob hpayload hkey hret hn⟩

end Runs

/-! ### An attempt that is overtaken -/

def bulkGreetings : CreateJobInput := ⟨tenantA, .bulkChat "gpt-4o-mini" ["hello", "bye"], none⟩

/-- The next commands of a process, none of which fails. -/
def going {η : Type} (p : Pid) (choices : List Choice) : List (Label Pid Input η Op) :=
  choices.map fun choice => .step p ⟨choice, none⟩

/-- The first worker stalls when it has billed the first prompt, and goes on after its replacement
has billed it again. The replacement ends first. -/
def overtaken : List (Label Pid Input JobDrift Op) :=
  .start ⟨tenantA, 0⟩ (.createJob bulkGreetings) ::
    going ⟨tenantA, 0⟩ [.nothing, .nothing, .nothing, .id jobA, .nothing, .nothing] ++
  .start ⟨tenantA, 1⟩ .processJob ::
    going ⟨tenantA, 1⟩ [.index 0, .nothing, .nothing, .nothing, .chat (.ok (greeted "chatcmpl-1")),
      .nothing] ++
  .drift (.stall ⟨"1", ⟨jobA, tenantA, "bulk_chat"⟩, 10, 0⟩) :: .start ⟨tenantA, 2⟩ .processJob ::
    going ⟨tenantA, 2⟩ [.index 0, .nothing, .nothing, .nothing, .chat (.ok (greeted "chatcmpl-2")),
      .nothing, .nothing, .nothing] ++
  going ⟨tenantA, 1⟩ [.nothing, .nothing, .chat (.ok (greeted "chatcmpl-3")), .nothing] ++
  going ⟨tenantA, 2⟩ [.chat (.ok (greeted "chatcmpl-4")), .nothing, .nothing, .nothing, .nothing]

theorem promptsBilledOnce_overtaken :
    ∃ c job, (stalling plainDeps).run (.init (.fresh (fun _ => none) (fun _ => none))) overtaken =
        some c ∧ HandlerReturned c job.id ∧ c.world.shared.usageRecords.length = 2 ∧
      PromptsBilledOnce plainDeps job tenantA "gpt-4o-mini" ["hello", "bye"] c := by
  have hres : ((stalling plainDeps).run (.init (.fresh (fun _ => none) (fun _ => none)))
      overtaken).map (fun c => (c.world.shared.jobs.map JobRow.submission,
        c.world.shared.usageRecords.length, (c.procs ⟨tenantA, 2⟩).isSome,
        c.world.history.head?.map fun e => (e.pid, e.cmd))) =
          some ([⟨jobA, tenantA, some tenantA, .bulkChat "gpt-4o-mini" ["hello", "bye"]⟩], 2, true,
            some (⟨tenantA, 2⟩,
              .updateJob tenantA jobA (.completed (.responses ["hi", "hi"])))) := by
    decide +kernel
  obtain ⟨c, hrun, hc⟩ := Option.map_eq_some_iff.mp hres
  obtain ⟨hjobs, hrest⟩ := Prod.mk.inj hc
  obtain ⟨hrows, hrest⟩ := Prod.mk.inj hrest
  obtain ⟨hproc, hlast⟩ := Prod.mk.inj hrest
  obtain ⟨job, hjob, hsub⟩ := List.map_eq_singleton_iff.mp hjobs
  obtain ⟨P, hP⟩ := Option.isSome_iff_exists.mp hproc
  obtain ⟨⟨q, cmd, answer⟩, hhead, heq⟩ := Option.map_eq_some_iff.mp hlast
  obtain ⟨rfl, rfl⟩ := Prod.mk.inj heq
  have hid : job.id = jobA := congrArg Submission.id hsub
  have hret : HandlerReturned c jobA :=
    ⟨_, P, hP, tenantA, .responses ["hi", "hi"], .inr ⟨answer, List.mem_of_mem_head? hhead⟩⟩
  exact ⟨c, job, hrun, hid ▸ hret, hrows, promptsBilledOnce plainDeps _ _ _ c hrun
    (by decide +kernel) job (hjob ▸ List.mem_singleton_self _) tenantA "gpt-4o-mini"
    ["hello", "bye"] (congrArg Submission.payload hsub) (congrArg Submission.apiKeyId hsub)⟩

end CloudMesh.Gateway
