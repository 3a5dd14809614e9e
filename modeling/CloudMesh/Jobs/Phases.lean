import CloudMesh.Gateway.Confinement

/-!
# The phases of a job

How far a process has come with a job can be read off the answers it has got. Each operation writes
the row of a job, adds to the queue and takes from it only in the phase that is meant for it, and
ends in a phase in which it owes the job nothing.

## Main definitions

- `Phase`, `phase` — how far a process has come
- `JobRule` — what a process may do to jobs in its phase
- `obeys_jobRule` — every process follows the rule
-/

namespace CloudMesh.Gateway

open Concurrent

/-- How far a process has come with a job. -/
inductive Phase
  /-- Nothing has been done. -/
  | idle
  /-- The row is written, and the queue has not been asked yet. -/
  | created (id : Uuid)
  /-- The row has been read in a state that can be replayed. -/
  | replayable (row : JobRow)
  /-- The row is reset for its replay, and the queue has not been asked yet. -/
  | requeued (row : JobRow)
  /-- An attempt is under way. -/
  | taken (entry : QueueEntry)
  /-- The job is completed, and nobody has been told. -/
  | completed (entry : QueueEntry)
  /-- The job is completed, and telling so has failed. -/
  | unannounced (entry : QueueEntry)
  /-- The job is completed and everybody has been told. -/
  | announced (entry : QueueEntry)
  /-- The attempt has failed, and the row does not say so yet. -/
  | failed (entry : QueueEntry)
  | over
  deriving DecidableEq

namespace Phase

/-- A row has been looked up, and found or not. -/
def reading (found : Option JobRow) : Phase → Phase
  | .idle | .replayable _ =>
    match found with
    | some row => if row.status = .deadLetter then .replayable row else .idle
    | none => .idle
  | phase => phase

/-- An update has been tried, and it has changed a row or not. -/
def writing (update : JobUpdate) (done : Bool) : Phase → Phase
  | .taken entry =>
    match update with
    | .completed _ => if done then .completed entry else .taken entry
    | _ => .taken entry
  | .replayable row => if done then .requeued row else .over
  | .failed _ => .over
  | phase => phase

def publishing (done : Bool) : Phase → Phase
  | .completed entry => if done then .announced entry else .unannounced entry
  | phase => phase

/-- The phase after one exchange. -/
def after (phase : Phase) : Exchange sig → Phase
  | ⟨.createJobRow .., .ok id⟩ => .created id
  | ⟨.findJob .., .ok found⟩ => phase.reading found
  | ⟨.findJob .., .error _⟩ => phase.reading none
  | ⟨.queueAdd .., _⟩ => .over
  | ⟨.queueTake _, .ok entry⟩ => .taken entry.1
  | ⟨.updateJob _ _ update, .ok done⟩ => phase.writing update done
  | ⟨.updateJob _ _ update, .error _⟩ => phase.writing update false
  | ⟨.publishJobProgress _, .ok _⟩ => phase.publishing true
  | ⟨.publishJobProgress _, .error _⟩ => phase.publishing false
  | ⟨.queueFail entry, .ok _⟩ => .failed entry
  | ⟨.queueFail _, .error _⟩ => .over
  | ⟨.queueComplete _, _⟩ => .over
  | _ => phase

/-- Nothing has been begun that is not finished. -/
def isResting : Phase → Bool
  | .idle | .replayable _ | .over => true
  | _ => false

end Phase

/-- The phase that a process is in after its exchanges. -/
def phase (t : Transcript sig) : Phase := t.foldr (fun e ph => ph.after e) .idle

@[simp] theorem phase_cons (e : Exchange sig) (t : Transcript sig) :
    phase (e :: t) = (phase t).after e := rfl

/-- Whether a failure of the attempt is the last one. -/
def QueueEntry.isLastAttempt (entry : QueueEntry) : Bool :=
  decide (maxJobAttempts ≤ entry.attemptsMade + 1)

/-- What a process may do to jobs. -/
def JobRule (p : Pid) (_ : Op) (t : Transcript sig) : Cmd → Prop
  | .createJobRow orgId .. => orgId = p.orgId ∧ (phase t = .idle ∨ ∃ row, phase t = .replayable row)
  | .queueAdd data _ => data.orgId = p.orgId ∧ (phase t = .created data.jobRecordId ∨
      ∃ row, phase t = .requeued row ∧ row.id = data.jobRecordId)
  | .queueTake _ => phase t = .idle
  | .updateJob orgId id update =>
    match update with
    | .enqueued _ => phase t = .over
    | .requeued => orgId = p.orgId ∧ ∃ row, phase t = .replayable row ∧ row.id = id
    | .running _ | .progress _ | .completed _ => ∃ entry, phase t = .taken entry ∧
        orgId = entry.data.orgId ∧ id = entry.data.jobRecordId
    | .failed _ isFinalAttempt => ∃ entry, phase t = .failed entry ∧
        orgId = entry.data.orgId ∧ id = entry.data.jobRecordId ∧
        isFinalAttempt = entry.isLastAttempt
  | .queueComplete entry => phase t = .announced entry
  | .queueFail entry => phase t = .taken entry ∨ phase t = .unannounced entry
  | .publishJobProgress event => ∀ entry, phase t = .completed entry →
      event.jobId = entry.data.jobRecordId ∧ event.status = .completed
  | .writeOutboxEvent (.jobCompleted ..) => False
  | .findJob .. => ∀ row, phase t ≠ .requeued row
  | _ => True

/-- A process ends when it owes no job anything. -/
def JobEnded (_ : Pid) (_ : Op) (_ : Outcome) (t : Transcript sig) : Prop :=
  (phase t).isResting = true

/-! ## Commands that keep the phase -/

section Steps

variable {p : Pid} {op : Op} {t : Transcript sig} {c : Cmd} {r : sig.Ans c}

/-- Nothing has been begun. -/
def Unbegun (t : Transcript sig) : Prop := phase t = .idle ∨ ∃ row, phase t = .replayable row

theorem jobRule_of_isJob (h : c.isJob = false) (hp : ∀ row, phase t ≠ .requeued row) :
    JobRule p op t c := by
  unfold JobRule
  split <;> first | exact hp | trivial

theorem Unbegun.ne_requeued (h : Unbegun t) (row : JobRow) : phase t ≠ .requeued row := by
  rcases h with h | ⟨row', h⟩
  · rw [h]
    exact fun heq => by cases heq
  · rw [h]
    exact fun heq => by cases heq

/-- A lookup makes a replay possible, or not. -/
theorem Unbegun.reading (h : Unbegun t) (found : Option JobRow) :
    (phase t).reading found = .idle ∨ ∃ row, (phase t).reading found = .replayable row := by
  have hread : ∀ {phase : Phase}, (phase = .idle ∨ ∃ row, phase = .replayable row) →
      phase.reading found = (Phase.idle).reading found := by
    rintro phase (rfl | ⟨row, rfl⟩) <;> rfl
  rw [hread h]
  cases found with
  | none => exact .inl rfl
  | some row =>
    show (if row.status = .deadLetter then Phase.replayable row else .idle) = _ ∨
      ∃ row', (if row.status = .deadLetter then Phase.replayable row else .idle) = _
    split
    · exact .inr ⟨row, rfl⟩
    · exact .inl rfl

theorem Unbegun.cons (h : Unbegun t) (hc : c.isJob = false) : Unbegun (⟨c, r⟩ :: t) := by
  unfold Unbegun
  rw [phase_cons]
  cases c with
  | findJob orgId id =>
    cases r with
    | ok found => exact h.reading found
    | error err => exact h.reading none
  | createJobRow | updateJob | queueAdd | queueTake | queueComplete | queueFail
  | publishJobProgress => cases hc
  | _ => exact h

theorem Unbegun.isResting (h : Unbegun t) : (phase t).isResting = true := by
  rcases h with h | ⟨row, h⟩
  · rw [h]
    rfl
  · rw [h]
    rfl

theorem phase_cons_of_isJob (hc : c.isJob = false) {entry : QueueEntry}
    (h : phase t = .taken entry) : phase (⟨c, r⟩ :: t) = .taken entry := by
  rw [phase_cons, h]
  cases c with
  | findJob orgId id => cases r <;> rfl
  | createJobRow | updateJob | queueAdd | queueTake | queueComplete | queueFail
  | publishJobProgress => cases hc
  | _ => rfl

/-- An attempt stays under way. -/
theorem phase_cons_of_worksOn {entry : QueueEntry}
    (hc : c.WorksOn entry.data.orgId entry.data.jobRecordId) (h : phase t = .taken entry) :
    phase (⟨c, r⟩ :: t) = .taken entry := by
  cases c with
  | updateJob orgId id update =>
    rw [phase_cons, h]
    cases update with
    | running | progress => cases r <;> rfl
    | _ => exact nomatch hc
  | publishJobProgress event =>
    rw [phase_cons, h]
    cases r <;> rfl
  | _ => exact phase_cons_of_isJob hc h

theorem jobRule_of_worksOn {entry : QueueEntry}
    (hc : c.WorksOn entry.data.orgId entry.data.jobRecordId) (h : phase t = .taken entry) :
    JobRule p op t c := by
  cases c with
  | updateJob orgId id update =>
    cases update with
    | running | progress => exact ⟨entry, h, hc⟩
    | _ => exact nomatch hc
  | publishJobProgress event => exact fun entry' h' => nomatch h.symm.trans h'
  | _ => exact jobRule_of_isJob hc fun row h' => nomatch h.symm.trans h'

end Steps

/-! ## Following the code -/

section Triples

variable {deps : Deps} {p : Pid} {op : Op} {α : Type}

/-- Nothing is owed. -/
def Rested (t : Transcript sig) : Prop := (phase t).isResting = true

theorem Unbegun.rested {t : Transcript sig} (h : Unbegun t) : Rested t := h.isResting

theorem unbegun_triple {x : Prog α} (hx : Handler.Every (fun c : Cmd => c.isJob = false) x) :
    Handler.Triple (JobRule p op) Unbegun x (fun _ => Unbegun) fun _ => Rested :=
  (Handler.Triple.of_every (P := Unbegun) hx
    (fun _ _ ht hc => jobRule_of_isJob hc ht.ne_requeued)
    fun _ _ _ ht hc => ht.cons hc).conseq (fun _ h => h) (fun _ _ h => h) fun _ _ h => h.rested

theorem routine_isJob {orgId : OrgId} {x : Prog α} (hx : Handler.Every (Routine orgId) x) :
    Handler.Every (fun c : Cmd => c.isJob = false) x :=
  hx.mono fun _ hc => isJob_of_isRoutine hc.2

/-- The queue is asked for an entry of the row. -/
def Owing (id : Uuid) (t : Transcript sig) : Prop :=
  phase t = .created id ∨ ∃ row, phase t = .requeued row ∧ row.id = id

theorem rested_of_over {t : Transcript sig} (h : phase t = .over) : Rested t := by
  unfold Rested
  rw [h]
  rfl

theorem enqueue_triple (id : Uuid) (type : String) (priority : ℕ) :
    Handler.Triple (JobRule p op) (Owing id) (enqueue p.orgId id type priority)
      (fun _ => Rested) fun _ => Rested := by
  have hstays : ∀ {t : Transcript sig} {org : OrgId} {id : Uuid} {update : JobUpdate}
      {r : sig.Ans (.updateJob org id update)}, phase t = .over →
        phase (⟨.updateJob org id update, r⟩ :: t) = .over := by
    intro t org id update r h
    rw [phase_cons, h]
    cases r <;> rfl
  refine Handler.Triple.bind (Q := fun _ t => phase t = .over) ?_ fun bullJobId => ?_
  · exact command_triple (fun t h => ⟨rfl, h⟩) (fun _ _ _ => rfl) fun _ _ _ => rested_of_over rfl
  · refine Handler.Triple.bind (Q := fun _ t => phase t = .over) ?_ fun found => ?_
    · exact command_triple (fun t h => h) (fun _ _ h => hstays h)
        fun _ _ h => rested_of_over (hstays h)
    · cases found with
      | true => exact .pure fun _ h => rested_of_over h
      | false => exact .throw fun _ h => rested_of_over h

theorem createJob_triple (input : CreateJobInput) :
    Handler.Triple (JobRule p op) Unbegun (createJob deps p.orgId input) (fun _ => Rested)
      fun _ => Rested := by
  refine (unbegun_triple (routine_isJob (getOrgFeatureFlags_routine p.orgId))).bind fun flags => ?_
  refine Handler.Triple.bind (Q := fun _ => Unbegun) ?_ fun _ => ?_
  · split
    · exact (unbegun_triple (routine_isJob (enforceBudget_routine p.orgId deps.env))).bind
        fun _ => .pure fun _ h => h
    · exact .pure fun _ h => h
  · refine Handler.Triple.bind (Q := Owing) ?_ fun id => ?_
    · refine command_triple (fun t h => ⟨rfl, h⟩) (fun t id h => .inl rfl) fun t err h => ?_
      exact Unbegun.rested h
    · exact (enqueue_triple id _ _).bind fun _ => .pure fun _ h => h

/-- A read that finds a row that can be replayed is remembered. -/
theorem findJob_triple (id : Uuid) :
    Handler.Triple (JobRule p op) Unbegun (command (.findJob p.orgId id))
      (fun job t => Unbegun t ∧ ∀ row, job = some row → row.status = .deadLetter →
        phase t = .replayable row)
      fun _ => Rested := by
  refine command_triple (fun _ h => h.ne_requeued) (fun t job h => ⟨h.cons rfl, ?_⟩)
    fun t err h => (h.cons rfl).rested
  rintro row rfl hstatus
  show (phase t).reading (some row) = .replayable row
  rcases h with h | ⟨row', h⟩
  all_goals
    rw [h]
    exact if_pos hstatus

theorem replayJob_triple (id : Uuid) :
    Handler.Triple (JobRule p op) Unbegun (replayJob p.orgId id) (fun _ => Rested)
      fun _ => Rested := by
  refine (unbegun_triple (routine_isJob (getJob_routine p.orgId id))).bind fun _ => ?_
  refine (findJob_triple id).bind fun job => ?_
  cases job with
  | none => exact .pure fun _ h => h.1.rested
  | some row =>
    dsimp only
    split
    · exact .throw fun _ h => h.1.rested
    · rename_i hstatus
      have hdead : row.status = .deadLetter := not_not.mp hstatus
      refine Handler.Triple.bind (Q := fun _ => Owing row.id) ?_ fun _ =>
        (enqueue_triple row.id _ _).bind fun _ => .pure fun _ h => h
      have hread : ∀ {t : Transcript sig}, (Unbegun t ∧ ∀ row', some row = some row' →
          row'.status = .deadLetter → phase t = .replayable row') → phase t = .replayable row :=
        fun h => h.2 row rfl hdead
      refine Handler.Triple.bind (Q := fun found t => if found = true then Owing row.id t
        else Rested t) ?_ fun found => ?_
      · refine command_triple (fun t h => ⟨rfl, row, hread h, rfl⟩) (fun t found h => ?_)
          fun t err h => ?_
        · show if found = true then Owing row.id _ else Rested _
          cases found with
          | true =>
            refine .inr ⟨row, ?_, rfl⟩
            rw [phase_cons, hread h]
            rfl
          | false =>
            refine rested_of_over ?_
            rw [phase_cons, hread h]
            rfl
        · refine rested_of_over ?_
          rw [phase_cons, hread h]
          rfl
      · cases found with
        | true => exact .pure fun _ h => h
        | false => exact .throw fun _ h => h

/-! ### The worker -/

section Worker

variable {entry : QueueEntry}

/-- The attempt is under way, or it has ended otherwise than by its completion. -/
def Failing (entry : QueueEntry) (t : Transcript sig) : Prop :=
  phase t = .taken entry ∨ phase t = .unannounced entry

theorem working_triple {x : Prog α}
    (hx : Handler.Every (Working entry.data.orgId entry.data.jobRecordId) x) :
    Handler.Triple (JobRule p op) (fun t => phase t = .taken entry) x
      (fun _ t => phase t = .taken entry) fun _ => Failing entry :=
  (Handler.Triple.of_every (P := fun t => phase t = .taken entry) hx
    (fun _ _ ht hc => jobRule_of_worksOn hc.2 ht)
    fun _ _ _ ht hc => phase_cons_of_worksOn hc.2 ht).conseq (fun _ h => h) (fun _ _ h => h)
      fun _ _ h => .inl h

theorem markJobCompleted_triple (result : JobResult) :
    Handler.Triple (JobRule p op) (fun t => phase t = .taken entry)
      (markJobCompleted entry.data.jobRecordId entry.data.orgId result)
      (fun _ t => phase t = .announced entry) fun _ => Failing entry := by
  refine Handler.Triple.bind (Q := fun _ t => phase t = .completed entry) ?_ fun _ => ?_
  · refine Handler.Triple.bind (Q := fun found t => if found = true then
      phase t = .completed entry else phase t = .taken entry) ?_ fun found => ?_
    · refine command_triple (fun t h => ⟨entry, h, rfl, rfl⟩) (fun t found h => ?_)
        fun t err h => .inl ?_
      · show if found = true then phase _ = _ else phase _ = _
        cases found with
        | true =>
          rw [if_pos rfl, phase_cons, h]
          rfl
        | false =>
          rw [if_neg Bool.false_ne_true, phase_cons, h]
          rfl
      · rw [phase_cons, h]
        rfl
    · cases found with
      | true => exact .pure fun _ h => h
      | false => exact .throw fun _ h => .inl h
  · refine command_triple (fun t h entry' h' => ?_) (fun t _ h => ?_) fun t err h => .inr ?_
    · cases h.symm.trans h'
      exact ⟨rfl, rfl⟩
    · rw [phase_cons, h]
      rfl
    · rw [phase_cons, h]
      rfl

theorem runJob_triple : Handler.Triple (JobRule p op) (fun t => phase t = .taken entry)
    (runJob deps entry) (fun _ t => phase t = .announced entry) fun _ => Failing entry := by
  refine (working_triple (markJobRunning_working _ _ _)).bind fun _ => ?_
  refine Handler.Triple.bind (Q := fun _ t => phase t = .taken entry) ?_ fun row => ?_
  · exact working_triple (every_command ⟨⟨rfl, rfl⟩, rfl⟩)
  · cases row with
    | none => exact .throw fun _ h => .inl h
    | some row =>
      exact (working_triple (runHandler_working deps
        ⟨entry.data.jobRecordId, entry.data.orgId, row.apiKeyId⟩ _)).bind
          fun result => markJobCompleted_triple result

theorem markJobFailed_triple (message : String) :
    Handler.Triple (JobRule p op) (fun t => phase t = .failed entry)
      (markJobFailed entry.data.jobRecordId entry.data.orgId message entry.isLastAttempt)
      (fun _ => Rested) fun _ => Rested := by
  have hover : ∀ {t : Transcript sig} {event : JobProgressEvent}
      {r : sig.Ans (.publishJobProgress event)}, phase t = .over →
        phase (⟨.publishJobProgress event, r⟩ :: t) = .over := by
    intro t event r h
    rw [phase_cons, h]
    cases r <;> rfl
  have hwritten : ∀ {t : Transcript sig} {orgId : OrgId} {id : Uuid} {update : JobUpdate}
      {r : sig.Ans (.updateJob orgId id update)}, phase t = .failed entry →
        phase (⟨.updateJob orgId id update, r⟩ :: t) = .over := by
    intro t orgId id update r h
    rw [phase_cons, h]
    cases r <;> rfl
  refine Handler.Triple.bind (Q := fun _ t => phase t = .over) ?_ fun _ => ?_
  · exact command_triple (fun t h => ⟨entry, h, rfl, rfl, rfl⟩) (fun t _ h => hwritten h)
      fun t err h => rested_of_over (hwritten h)
  · exact command_triple (fun t h entry' h' => nomatch h.symm.trans h')
      (fun t _ h => rested_of_over (hover h)) fun t err h => rested_of_over (hover h)

end Worker

theorem processJob_triple : Handler.Triple (JobRule p op) (fun t => t = [])
    (processJob deps p.orgId) (fun _ => Rested) fun _ => Rested := by
  refine Handler.Triple.bind (Q := fun taken t => phase t = .taken taken.1) ?_ fun taken => ?_
  · refine command_triple (fun t h => ?_) (fun t r h => rfl) fun t err h => ?_
    · subst h
      rfl
    · subst h
      rfl
  · obtain ⟨entry, -⟩ := taken
    refine (settle_triple runJob_triple).bind fun result => ?_
    cases result with
    | ok a =>
      exact command_triple (fun t h => h) (fun _ _ _ => rested_of_over rfl)
        fun _ _ _ => rested_of_over rfl
    | error err =>
      refine Handler.Triple.bind (Q := fun _ t => phase t = .failed entry) ?_ fun _ => ?_
      · exact command_triple (fun t h => h) (fun _ _ _ => rfl) fun _ _ _ => rested_of_over rfl
      · refine Handler.Triple.bind (Q := fun _ => Rested) ?_ fun _ => .pure fun _ h => h
        refine (settle_triple (markJobFailed_triple err.message)).conseq (fun _ h => h)
          (fun r t h => ?_) fun _ _ h => h
        cases r <;> exact h

end Triples

/-- Every process does to jobs what its phase allows, and ends at rest. -/
theorem obeys_jobRule (deps : Deps) : (gateway deps).Obeys JobRule JobEnded := by
  intro p op
  have hnil : Unbegun [] := .inl rfl
  have hsome : ∀ {x : Prog Reply}, Handler.Triple (JobRule p op) Unbegun x (fun _ => Rested)
      (fun _ => Rested) → (some <$> x).run.Follows (JobRule p op) (JobEnded p op) [] := by
    intro x hx
    refine ((Handler.Triple.map (R := fun _ => Rested) some hx) [] hnil).mono (fun _ _ h => h)
      fun r t h => ?_
    cases r <;> exact h
  have hplain : op.isPlain = true →
      (handler deps p.orgId op).run.Follows (JobRule p op) (JobEnded p op) [] := by
    intro hop
    refine ((unbegun_triple (routine_isJob (handler_routine p.orgId deps op hop))) [] hnil).mono
      (fun _ _ h => h) fun r t h => ?_
    cases r with
    | ok a => exact h.rested
    | error err => exact h
  cases op with
  | chat input =>
    refine hsome ((unbegun_triple ?_).conseq (fun _ h => h) (fun _ _ h => h.rested) fun _ _ h => h)
    exact (chat_requesting p.orgId deps input).mono fun _ hc => hc.2
  | createJob input => exact hsome (createJob_triple input)
  | replayJob id => exact hsome (replayJob_triple id)
  | processJob =>
    have hbind : Handler.Triple (JobRule p .processJob) (fun t => t = [])
        (processJob deps p.orgId >>= fun _ => pure none : Prog (Option Reply)) (fun _ => Rested)
        fun _ => Rested :=
      processJob_triple.bind fun _ => .pure fun _ h => h
    refine (hbind [] rfl).mono (fun _ _ h => h) fun r t h => ?_
    cases r <;> exact h
  | cacheStats | deleteCache | abStats | listJobs | getJob => exact hplain rfl

end CloudMesh.Gateway
