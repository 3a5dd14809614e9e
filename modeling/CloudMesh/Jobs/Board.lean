import CloudMesh.Jobs.Phases

/-!
# The board of jobs

What there is to say about jobs in a configuration: the rows, the entries that wait and those that
are taken, the completions that have been reported, and the phase of every process. Every step of
the gateway is one of the moves below on this board, or leaves it as it is; the properties of jobs
are proved over the moves.

## Main definitions

- `Board`, `boardOf` — the board, and the board of a configuration
- `Move` — everything that one command can do to the board
- `move_of_steps` — every step is a move
-/

namespace CloudMesh.Gateway

open Concurrent

/-- The decimal digits of a number can be read back. -/
theorem toString_nat_injective : Function.Injective (toString : ℕ → String) := by
  intro i j h
  have hdigits : Nat.toDigits 10 i = Nat.toDigits 10 j := by
    rw [← Nat.toList_repr, ← Nat.toList_repr]
    exact congrArg String.toList h
  have hback := congrArg (fun l => Nat.ofDigitChars 10 l 0) hdigits
  rwa [Nat.ofDigitChars_ten_toDigits, Nat.ofDigitChars_ten_toDigits] at hback

/-- The job whose completion an event reports. -/
def OutboxEvent.completion : OutboxEvent → Option Uuid
  | .jobCompleted _ jobId _ => some jobId
  | _ => none

structure Board where
  rows : List JobRow
  queue : List QueueEntry
  active : List QueueEntry
  completions : List Uuid
  /-- How many jobs have been added to the queue. -/
  added : ℕ
  drawn : List String
  phase : Pid → Phase

namespace Board

variable (b : Board)

/-- The rows after an update of one of them. -/
def written (orgId : OrgId) (id : Uuid) (update : JobUpdate) (now : ℤ) : List JobRow :=
  b.rows.map fun row => if row.orgId = orgId ∧ row.id = id then update.apply now row else row

/-- A process enters a phase. -/
def enter (p : Pid) (phase : Phase) : Board := { b with phase := Function.update b.phase p phase }

/-- Everything that one command of `p` can do to the board. A command that fails may have been
executed all the same. -/
inductive Move (p : Pid) : Exchange sig → Board → Prop
  | other (cmd : Cmd) (r : sig.Ans cmd) (drawn : List String) (hd : b.drawn ⊆ drawn)
      (hread : ∀ orgId id, cmd ≠ .findJob orgId id)
      (hadd : ∀ data priority, cmd ≠ .queueAdd data priority)
      (hupdate : ∀ orgId id update,
        (⟨cmd, r⟩ : Exchange sig) ≠ ⟨.updateJob orgId id update, .ok true⟩) :
      Move p ⟨cmd, r⟩ { b with drawn := drawn }
  | read (orgId : OrgId) (id : Uuid) (r : sig.Ans (.findJob orgId id)) (found : Option JobRow)
      (hp : ∀ row, b.phase p ≠ .requeued row)
      (hrow : ∀ row, found = some row → row ∈ b.rows ∧ row.id = id) :
      Move p ⟨.findJob orgId id, r⟩ (b.enter p ((b.phase p).reading found))
  | create (orgId : OrgId) (apiKeyId : Uuid) (payload : JobPayload) (priority : ℕ) (row : JobRow)
      (hp : b.phase p = .idle ∨ ∃ r, b.phase p = .replayable r) (horg : row.orgId = p.orgId)
      (hstatus : row.status = .queued) (hfresh : row.id.text ∉ b.drawn) :
      Move p ⟨.createJobRow orgId apiKeyId payload priority, .ok row.id⟩
        { b.enter p (.created row.id) with
          rows := b.rows ++ [row], drawn := row.id.text :: b.drawn }
  | createLost (orgId : OrgId) (apiKeyId : Uuid) (payload : JobPayload) (priority : ℕ)
      (row : JobRow) (err : Thrown) (hstatus : row.status = .queued)
      (hfresh : row.id.text ∉ b.drawn) :
      Move p ⟨.createJobRow orgId apiKeyId payload priority, .error err⟩
        { b with rows := b.rows ++ [row], drawn := row.id.text :: b.drawn }
  | add (entry : QueueEntry) (r : sig.Ans (.queueAdd entry.data entry.priority))
      (hp : b.phase p = .created entry.data.jobRecordId ∨
        ∃ row, b.phase p = .requeued row ∧ row.id = entry.data.jobRecordId)
      (horg : entry.data.orgId = p.orgId) (hnumber : entry.bullJobId = toString (b.added + 1)) :
      Move p ⟨.queueAdd entry.data entry.priority, r⟩
        { b.enter p .over with queue := b.queue ++ [entry], added := b.added + 1 }
  | addLost (data : JobData) (priority : ℕ) (err : Thrown)
      (hp : b.phase p = .created data.jobRecordId ∨
        ∃ row, b.phase p = .requeued row ∧ row.id = data.jobRecordId) :
      Move p ⟨.queueAdd data priority, .error err⟩ (b.enter p .over)
  | take (entry : QueueEntry) (hp : b.phase p = .idle) (hentry : entry ∈ b.queue) :
      Move p ⟨.queueTake entry.data.orgId, .ok ⟨entry, rfl⟩⟩
        { b.enter p (.taken entry) with
          queue := b.queue.erase entry, active := b.active ++ [entry] }
  | takeLost (entry : QueueEntry) (err : Thrown) (hp : b.phase p = .idle)
      (hentry : entry ∈ b.queue) : Move p ⟨.queueTake entry.data.orgId, .error err⟩
        { b with queue := b.queue.erase entry, active := b.active ++ [entry] }
  | work (entry : QueueEntry) (update : JobUpdate) (now : ℤ)
      (r : sig.Ans (.updateJob entry.data.orgId entry.data.jobRecordId update))
      (hp : b.phase p = .taken entry)
      (hu : (∃ n, update = .running n) ∨ ∃ n, update = .progress n) :
      Move p ⟨.updateJob entry.data.orgId entry.data.jobRecordId update, r⟩
        { b with rows := b.written entry.data.orgId entry.data.jobRecordId update now }
  | complete (entry : QueueEntry) (result : JobResult) (now : ℤ) (hp : b.phase p = .taken entry)
      (hrow : ∃ row ∈ b.rows, row.orgId = entry.data.orgId ∧ row.id = entry.data.jobRecordId) :
      Move p ⟨.updateJob entry.data.orgId entry.data.jobRecordId (.completed result), .ok true⟩
        { b.enter p (.completed entry) with
          rows := b.written entry.data.orgId entry.data.jobRecordId (.completed result) now
          completions := b.completions ++ [entry.data.jobRecordId] }
  | completeLost (entry : QueueEntry) (result : JobResult) (now : ℤ) (err : Thrown)
      (hp : b.phase p = .taken entry) :
      Move p ⟨.updateJob entry.data.orgId entry.data.jobRecordId (.completed result), .error err⟩
        { b with
          rows := b.written entry.data.orgId entry.data.jobRecordId (.completed result) now
          completions := b.completions ++ [entry.data.jobRecordId] }
  | announce (entry : QueueEntry) (event : JobProgressEvent) (hp : b.phase p = .completed entry)
      (hid : event.jobId = entry.data.jobRecordId) (hstatus : event.status = .completed) :
      Move p ⟨.publishJobProgress event, .ok ()⟩ (b.enter p (.announced entry))
  | announceLost (entry : QueueEntry) (event : JobProgressEvent) (err : Thrown)
      (hp : b.phase p = .completed entry) (hid : event.jobId = entry.data.jobRecordId)
      (hstatus : event.status = .completed) :
      Move p ⟨.publishJobProgress event, .error err⟩ (b.enter p (.unannounced entry))
  | finish (entry : QueueEntry) (r : sig.Ans (.queueComplete entry))
      (hp : b.phase p = .announced entry) : Move p ⟨.queueComplete entry, r⟩
        { b.enter p .over with active := b.active.erase entry }
  | finishLost (entry : QueueEntry) (err : Thrown) (hp : b.phase p = .announced entry) :
      Move p ⟨.queueComplete entry, .error err⟩ (b.enter p .over)
  | fail (entry : QueueEntry) (hp : b.phase p = .taken entry ∨ b.phase p = .unannounced entry) :
      Move p ⟨.queueFail entry, .ok ()⟩
        { b.enter p (.failed entry) with
          active := b.active.erase entry, queue := b.queue ++ entry.retried.toList }
  | failLost (entry : QueueEntry) (err : Thrown)
      (hp : b.phase p = .taken entry ∨ b.phase p = .unannounced entry) :
      Move p ⟨.queueFail entry, .error err⟩
        { b.enter p .over with
          active := b.active.erase entry, queue := b.queue ++ entry.retried.toList }
  | failSkipped (entry : QueueEntry) (err : Thrown)
      (hp : b.phase p = .taken entry ∨ b.phase p = .unannounced entry) :
      Move p ⟨.queueFail entry, .error err⟩ (b.enter p .over)
  | markFailed (entry : QueueEntry) (message : String) (now : ℤ)
      (r : sig.Ans (.updateJob entry.data.orgId entry.data.jobRecordId
        (.failed message entry.isLastAttempt)))
      (hp : b.phase p = .failed entry) :
      Move p ⟨.updateJob entry.data.orgId entry.data.jobRecordId
          (.failed message entry.isLastAttempt), r⟩
        { b.enter p .over with
          rows := b.written entry.data.orgId entry.data.jobRecordId
            (.failed message entry.isLastAttempt) now }
  | markFailedLost (entry : QueueEntry) (message : String) (err : Thrown)
      (hp : b.phase p = .failed entry) :
      Move p ⟨.updateJob entry.data.orgId entry.data.jobRecordId
        (.failed message entry.isLastAttempt), .error err⟩ (b.enter p .over)
  | requeue (row : JobRow) (now : ℤ) (hp : b.phase p = .replayable row)
      (hrow : ∃ r ∈ b.rows, r.orgId = p.orgId ∧ r.id = row.id) :
      Move p ⟨.updateJob p.orgId row.id .requeued, .ok true⟩
        { b.enter p (.requeued row) with rows := b.written p.orgId row.id .requeued now }
  | requeueLost (row : JobRow) (now : ℤ) (err : Thrown) (hp : b.phase p = .replayable row) :
      Move p ⟨.updateJob p.orgId row.id .requeued, .error err⟩
        { b.enter p .over with rows := b.written p.orgId row.id .requeued now }
  | requeueSkipped (row : JobRow) (r : sig.Ans (.updateJob p.orgId row.id .requeued))
      (hp : b.phase p = .replayable row) :
      Move p ⟨.updateJob p.orgId row.id .requeued, r⟩ (b.enter p .over)
  | note (orgId : OrgId) (id : Uuid) (bullJobId : String) (now : ℤ)
      (r : sig.Ans (.updateJob orgId id (.enqueued bullJobId))) (hp : b.phase p = .over) :
      Move p ⟨.updateJob orgId id (.enqueued bullJobId), r⟩
        { b with rows := b.written orgId id (.enqueued bullJobId) now }

end Board

/-! ## The board of a configuration -/

def phaseOf (c : GatewayConfig) (p : Pid) : Phase := phase (transcript p c.world.history)

def Store.board (s : Store) (phase : Pid → Phase) : Board where
  rows := s.jobs
  queue := s.queue
  active := s.active
  completions := s.outbox.filterMap OutboxEvent.completion
  added := s.added.length
  drawn := s.drawn
  phase := phase

def boardOf (c : GatewayConfig) : Board := c.world.shared.board (phaseOf c)

section Moves

variable {deps : Deps} {c d : GatewayConfig} {a : Action sig Pid Drift Op}

theorem phaseOf_after {p : Pid} {cmd : sig.Cmd} {r : sig.Ans cmd} {s : Store}
    {procs : Pid → Option (Proc sig Pid Op Outcome)} :
    phaseOf ⟨c.world.after ⟨p, cmd, r⟩ s, procs⟩ =
      Function.update (phaseOf c) p ((phaseOf c p).after ⟨cmd, r⟩) := by
  funext q
  unfold phaseOf
  rw [World.after_history]
  by_cases hqp : q = p
  · subst hqp
    rw [Function.update_self, transcript_cons_self, phase_cons]
  · rw [Function.update_of_ne hqp, transcript_cons_of_ne (Ne.symm hqp)]

/-- A command that is none of a job leaves the jobs alone. -/
theorem board_of_effect {s s' : Store} {cmd : Cmd} (h : s.Effect cmd s') (hc : cmd.isJob = false) :
    s'.jobs = s.jobs ∧ s'.queue = s.queue ∧ s'.active = s.active ∧
      s'.outbox.filterMap OutboxEvent.completion = s.outbox.filterMap OutboxEvent.completion ∧
        s'.added = s.added ∧ s.drawn ⊆ s'.drawn := by
  cases h with
  | draw id => exact ⟨rfl, rfl, rfl, rfl, rfl, List.subset_cons_self _ _⟩
  | insertUsage params cost =>
    exact ⟨rfl, rfl, rfl, by simp [OutboxEvent.completion], rfl, fun _ h => h⟩
  | writeOutboxEvent event =>
    refine ⟨rfl, rfl, rfl, ?_, rfl, fun _ h => h⟩
    cases event with
    | jobCompleted => cases hc
    | _ => simp [OutboxEvent.completion]
  | createJobRow | updateJob | queueAdd | queueTake | queueComplete | queueFail => cases hc
  | _ => exact ⟨rfl, rfl, rfl, rfl, rfl, fun _ h => h⟩

/-! ## Updates of a row -/

theorem find_jobsOf {s : Store} {orgId : OrgId} {id : Uuid} {row : JobRow}
    (h : (s.jobsOf orgId).find? (fun row => row.id = id) = some row) :
    row ∈ s.jobs ∧ row.orgId = orgId ∧ row.id = id := by
  have hmem := List.mem_filter.mp (List.mem_of_find?_eq_some h)
  exact ⟨hmem.1, of_decide_eq_true hmem.2, by simpa using List.find?_some h⟩

/-- An update of a row that is not there changes no row. -/
theorem written_eq_self {b : Board} {orgId : OrgId} {id : Uuid} {update : JobUpdate} {now : ℤ}
    (h : ∀ row ∈ b.rows, ¬(row.orgId = orgId ∧ row.id = id)) :
    b.written orgId id update now = b.rows := by
  unfold Board.written
  conv_rhs => rw [← List.map_id b.rows]
  exact List.map_congr_left fun row hrow => if_neg (h row hrow)

theorem updateJob_rows (s : Store) (phase : Pid → Phase) (orgId : OrgId) (id : Uuid)
    (update : JobUpdate) : (s.updateJob orgId id update).2.jobs =
      (s.board phase).written orgId id update s.clock := by
  unfold Store.updateJob
  split
  · rename_i hnone
    show (s.board phase).rows = _
    refine (written_eq_self fun row hrow hmatch => ?_).symm
    have hnot := List.find?_eq_none.mp hnone row
      (List.mem_filter.mpr ⟨hrow, decide_eq_true hmatch.1⟩)
    exact hnot (decide_eq_true hmatch.2)
  · rfl

theorem updateJob_cases (s : Store) (orgId : OrgId) (id : Uuid) (update : JobUpdate) :
    ((∃ row ∈ s.jobs, row.orgId = orgId ∧ row.id = id) ∧ (s.updateJob orgId id update).1 = true) ∨
      s.updateJob orgId id update = (false, s) := by
  unfold Store.updateJob
  split
  · exact .inr rfl
  · rename_i row hrow
    exact .inl ⟨⟨row, find_jobsOf hrow⟩, rfl⟩

/-- Only a completion is reported as one. -/
theorem updateJob_completions {s : Store} {orgId : OrgId} {id : Uuid} {update : JobUpdate}
    (hu : ∀ result, update ≠ .completed result) :
    (s.updateJob orgId id update).2.outbox.filterMap OutboxEvent.completion =
      s.outbox.filterMap OutboxEvent.completion := by
  unfold Store.updateJob
  split
  · rfl
  · rename_i row _
    have hnone : (update.event row).toList.filterMap OutboxEvent.completion = [] := by
      unfold JobUpdate.event
      split
      · exact absurd rfl (hu _)
      · rfl
      · rfl
    simp [hnone]

/-- The board after a completion. -/
theorem completed_board {s : Store} {phase' : Pid → Phase} {orgId : OrgId} {id : Uuid}
    {result : JobResult} (hrow : ∃ row ∈ s.jobs, row.orgId = orgId ∧ row.id = id) :
    (s.updateJob orgId id (.completed result)).2.board phase' = { s.board phase' with
      rows := (s.board phase').written orgId id (.completed result) s.clock
      completions := (s.board phase').completions ++ [id] } := by
  have hrows := updateJob_rows s phase' orgId id (.completed result)
  unfold Store.board at hrows ⊢
  rw [hrows]
  unfold Store.updateJob
  split
  · rename_i hnone
    obtain ⟨row, hmem, horg, hid⟩ := hrow
    have hnot := List.find?_eq_none.mp hnone row
      (List.mem_filter.mpr ⟨hmem, decide_eq_true horg⟩)
    exact absurd (decide_eq_true hid) hnot
  · rename_i row hfind
    have hid := (find_jobsOf hfind).2.2
    simp [JobUpdate.event, OutboxEvent.completion, hid]

/-- The board after an update. -/
theorem updateJob_board (s : Store) (phase phase' : Pid → Phase) (orgId : OrgId) (id : Uuid)
    {update : JobUpdate} (hu : ∀ result, update ≠ .completed result) :
    (s.updateJob orgId id update).2.board phase' = { s.board phase with
      rows := (s.board phase).written orgId id update s.clock
      phase := phase' } := by
  have hrows := updateJob_rows s phase orgId id update
  have hcompletions : (s.updateJob orgId id update).2.outbox.filterMap OutboxEvent.completion =
      s.outbox.filterMap OutboxEvent.completion := updateJob_completions hu
  unfold Store.board at hrows ⊢
  rw [hrows, hcompletions]
  unfold Store.updateJob
  split <;> rfl

/-! ## Every step is a move -/

section Exec

variable {p : Pid} {op : Op} {i : Input} {s : Store}

/-- The phases after an answer. -/
def phasesAfter (c : GatewayConfig) (p : Pid) (e : Exchange sig) : Pid → Phase :=
  Function.update (phaseOf c) p ((phaseOf c p).after e)

theorem phasesAfter_of_eq {e : Exchange sig} {phase : Phase}
    (h : (phaseOf c p).after e = phase) :
    phasesAfter c p e = ((boardOf c).enter p phase).phase := by
  unfold phasesAfter
  rw [h]
  rfl

theorem phasesAfter_eq_self {e : Exchange sig} (h : (phaseOf c p).after e = phaseOf c p) :
    phasesAfter c p e = phaseOf c := by
  unfold phasesAfter
  rw [h, Function.update_eq_self]

theorem move_of_isJob {cmd : sig.Cmd} {r : sig.Ans cmd} (hc : cmd.isJob = false)
    (hread : ∀ orgId id, cmd ≠ .findJob orgId id)
    (hx : exec deps.similarity p cmd i c.world.shared = some (r, s))
    (he : (phaseOf c p).after ⟨cmd, r⟩ = phaseOf c p) :
    (boardOf c).Move p ⟨cmd, r⟩ (s.board (phasesAfter c p ⟨cmd, r⟩)) := by
  obtain ⟨hjobs, hqueue, hactive, hcompletions, hadded, hdrawn⟩ :=
    board_of_effect (effect_of_exec (p := p) hx) hc
  have hboard : s.board (phaseOf c) = { boardOf c with drawn := s.drawn } := by
    unfold Store.board boardOf Store.board
    rw [hjobs, hqueue, hactive, hcompletions, hadded]
  rw [phasesAfter_eq_self he, hboard]
  refine .other _ _ _ hdrawn hread (fun data priority heq => ?_) fun org id update heq => ?_
  · rw [heq] at hc
    cases hc
  · cases heq
    cases hc

/-- A command that leaves the store as it is and the process in its phase. -/
theorem move_of_skipped {cmd : sig.Cmd} {err : Thrown}
    (hread : ∀ orgId id, cmd ≠ .findJob orgId id)
    (hadd : ∀ data priority, cmd ≠ .queueAdd data priority)
    (he : (phaseOf c p).after ⟨cmd, .error err⟩ = phaseOf c p) :
    (boardOf c).Move p ⟨cmd, .error err⟩
      (c.world.shared.board (phasesAfter c p ⟨cmd, .error err⟩)) := by
  rw [phasesAfter_eq_self he]
  exact .other _ _ c.world.shared.drawn (fun _ h => h) hread hadd fun _ _ _ h => by cases h

theorem move_findJob {orgId : OrgId} {id : Uuid} {r : sig.Ans (.findJob orgId id)}
    (hp : ∀ row, phaseOf c p ≠ .requeued row)
    (hx : exec deps.similarity p (.findJob orgId id) i c.world.shared = some (r, s)) :
    (boardOf c).Move p ⟨.findJob orgId id, r⟩
    (s.board (phasesAfter c p ⟨.findJob orgId id, r⟩)) := by
  rcases exec_cases hx with hperform | ⟨err, rfl, rfl | ⟨r', hperform⟩⟩
  · cases hperform
    exact .read orgId id _ _ hp fun row hrow => ⟨(find_jobsOf hrow).1, (find_jobsOf hrow).2.2⟩
  · exact .read orgId id _ none hp fun _ h => by cases h
  · cases hperform
    exact .read orgId id _ none hp fun _ h => by cases h

theorem move_createJobRow {orgId : OrgId} {apiKeyId : Uuid} {payload : JobPayload} {priority : ℕ}
    {r : sig.Ans (.createJobRow orgId apiKeyId payload priority)} (horg : orgId = p.orgId)
    (hp : phaseOf c p = .idle ∨ ∃ row, phaseOf c p = .replayable row)
    (hx : exec deps.similarity p (.createJobRow orgId apiKeyId payload priority) i
      c.world.shared = some (r, s)) :
    (boardOf c).Move p ⟨.createJobRow orgId apiKeyId payload priority, r⟩
      (s.board (phasesAfter c p ⟨.createJobRow orgId apiKeyId payload priority, r⟩)) := by
  have hperformed : ∀ {r' : sig.Ans (.createJobRow orgId apiKeyId payload priority)},
      c.world.shared.perform deps.similarity (.createJobRow orgId apiKeyId payload priority)
        i.choice = some (r', s) → ∃ id, r' = .ok id ∧ id.text ∉ c.world.shared.drawn ∧
          s = { c.world.shared with
            jobs := c.world.shared.jobs ++
              [c.world.shared.newJob id orgId apiKeyId payload priority]
            drawn := id.text :: c.world.shared.drawn } := by
    intro r' h
    simp only [Store.perform] at h
    split at h
    · rename_i id _
      split at h
      · cases h
      · rename_i hfresh
        cases h
        exact ⟨id, rfl, hfresh, rfl⟩
    · cases h
  rcases exec_cases hx with hperform | ⟨err, rfl, rfl | ⟨r', hperform⟩⟩
  · obtain ⟨id, rfl, hfresh, rfl⟩ := hperformed hperform
    exact .create orgId apiKeyId payload priority
      (c.world.shared.newJob id orgId apiKeyId payload priority) hp horg rfl hfresh
  · exact move_of_skipped (fun _ _ h => by cases h) (fun _ _ h => by cases h) rfl
  · obtain ⟨id, -, hfresh, rfl⟩ := hperformed hperform
    rw [phasesAfter_eq_self rfl]
    exact .createLost orgId apiKeyId payload priority
      (c.world.shared.newJob id orgId apiKeyId payload priority) err rfl hfresh

theorem move_queueAdd {data : JobData} {priority : ℕ} {r : sig.Ans (.queueAdd data priority)}
    (horg : data.orgId = p.orgId)
    (hp : phaseOf c p = .created data.jobRecordId ∨
      ∃ row, phaseOf c p = .requeued row ∧ row.id = data.jobRecordId)
    (hx : exec deps.similarity p (.queueAdd data priority) i c.world.shared = some (r, s)) :
    (boardOf c).Move p ⟨.queueAdd data priority, r⟩
      (s.board (phasesAfter c p ⟨.queueAdd data priority, r⟩)) := by
  have hadd : ∀ {r' : sig.Ans (.queueAdd data priority)},
      c.world.shared.perform deps.similarity (.queueAdd data priority) i.choice = some (r', s) →
        (boardOf c).Move p ⟨.queueAdd data priority, r⟩
          (s.board (phasesAfter c p ⟨.queueAdd data priority, r⟩)) := by
    intro r' h
    cases h
    exact .add ⟨c.world.shared.nextBullJobId, data, priority, 0⟩ r hp horg rfl
  rcases exec_cases hx with hperform | ⟨err, rfl, rfl | ⟨r', hperform⟩⟩
  · exact hadd hperform
  · exact .addLost data priority err hp
  · exact hadd hperform

theorem move_queueTake {orgId : OrgId} {r : sig.Ans (.queueTake orgId)}
    (hp : phaseOf c p = .idle)
    (hx : exec deps.similarity p (.queueTake orgId) i c.world.shared = some (r, s)) :
    (boardOf c).Move p ⟨.queueTake orgId, r⟩ (s.board (phasesAfter c p ⟨.queueTake orgId, r⟩)) := by
  have hperformed : ∀ {r' : sig.Ans (.queueTake orgId)},
      c.world.shared.perform deps.similarity (.queueTake orgId) i.choice = some (r', s) →
        ∃ entry : { entry : QueueEntry // entry.data.orgId = orgId },
          entry.1 ∈ c.world.shared.queue ∧ r' = .ok entry ∧ s = { c.world.shared with
            queue := c.world.shared.queue.erase entry.1
            active := c.world.shared.active ++ [entry.1] } := by
    intro r' h
    simp only [Store.perform] at h
    split at h
    · split at h
      · rename_i entry hentry
        cases h
        obtain ⟨e, he, heq⟩ := List.mem_filterMap.mp (List.mem_of_getElem? hentry)
        split at heq
        · cases heq
          exact ⟨_, he, rfl, rfl⟩
        · cases heq
      · cases h
    · cases h
  rcases exec_cases hx with hperform | ⟨err, rfl, rfl | ⟨r', hperform⟩⟩
  · obtain ⟨⟨entry, rfl⟩, hmem, rfl, rfl⟩ := hperformed hperform
    exact .take entry hp hmem
  · exact move_of_skipped (fun _ _ h => by cases h) (fun _ _ h => by cases h) rfl
  · obtain ⟨⟨entry, rfl⟩, hmem, -, rfl⟩ := hperformed hperform
    rw [phasesAfter_eq_self rfl]
    exact .takeLost entry err hp hmem

theorem move_queueComplete {entry : QueueEntry} {r : sig.Ans (.queueComplete entry)}
    (hp : phaseOf c p = .announced entry)
    (hx : exec deps.similarity p (.queueComplete entry) i c.world.shared = some (r, s)) :
    (boardOf c).Move p ⟨.queueComplete entry, r⟩
      (s.board (phasesAfter c p ⟨.queueComplete entry, r⟩)) := by
  rcases exec_cases hx with hperform | ⟨err, rfl, rfl | ⟨r', hperform⟩⟩
  · cases hperform
    exact .finish entry _ hp
  · exact .finishLost entry err hp
  · cases hperform
    exact .finish entry _ hp

theorem move_queueFail {entry : QueueEntry} {r : sig.Ans (.queueFail entry)}
    (hp : phaseOf c p = .taken entry ∨ phaseOf c p = .unannounced entry)
    (hx : exec deps.similarity p (.queueFail entry) i c.world.shared = some (r, s)) :
    (boardOf c).Move p ⟨.queueFail entry, r⟩
      (s.board (phasesAfter c p ⟨.queueFail entry, r⟩)) := by
  rcases exec_cases hx with hperform | ⟨err, rfl, rfl | ⟨r', hperform⟩⟩
  · cases hperform
    exact .fail entry hp
  · exact .failSkipped entry err hp
  · cases hperform
    exact .failLost entry err hp

theorem move_publishJobProgress {event : JobProgressEvent}
    {r : sig.Ans (.publishJobProgress event)}
    (hrule : ∀ entry, phaseOf c p = .completed entry →
      event.jobId = entry.data.jobRecordId ∧ event.status = .completed)
    (hx : exec deps.similarity p (.publishJobProgress event) i c.world.shared = some (r, s)) :
    (boardOf c).Move p ⟨.publishJobProgress event, r⟩
      (s.board (phasesAfter c p ⟨.publishJobProgress event, r⟩)) := by
  have hsame : s = c.world.shared := by
    rcases exec_cases hx with hperform | ⟨err, -, hs | ⟨r', hperform⟩⟩
    · cases hperform
      rfl
    · exact hs
    · cases hperform
      rfl
  subst hsame
  by_cases hp : ∃ entry, phaseOf c p = .completed entry
  · obtain ⟨entry, hp⟩ := hp
    obtain ⟨hid, hstatus⟩ := hrule entry hp
    cases r with
    | ok u =>
      have hafter : (phaseOf c p).after ⟨.publishJobProgress event, .ok u⟩ = .announced entry := by
        rw [hp]
        rfl
      rw [phasesAfter_of_eq hafter]
      exact .announce entry event hp hid hstatus
    | error err =>
      have hafter : (phaseOf c p).after ⟨.publishJobProgress event, .error err⟩ =
          .unannounced entry := by
        rw [hp]
        rfl
      rw [phasesAfter_of_eq hafter]
      exact .announceLost entry event err hp hid hstatus
  · have hafter : (phaseOf c p).after ⟨.publishJobProgress event, r⟩ = phaseOf c p := by
      have hpublishing : ∀ done, (phaseOf c p).publishing done = phaseOf c p := by
        intro done
        unfold Phase.publishing
        split
        · exact absurd ⟨_, ‹_›⟩ hp
        · rfl
      cases r with
      | ok u => exact hpublishing true
      | error err => exact hpublishing false
    rw [phasesAfter_eq_self hafter]
    exact .other _ _ c.world.shared.drawn (fun _ h => h) (fun _ _ h => by cases h)
      (fun _ _ h => by cases h) fun _ _ _ h => by cases h

/-- What the answer to an update says. -/
theorem exec_updateJob {orgId : OrgId} {id : Uuid} {update : JobUpdate}
    {r : sig.Ans (.updateJob orgId id update)}
    (hx : exec deps.similarity p (.updateJob orgId id update) i c.world.shared = some (r, s)) :
    (r = .ok true ∧ s = (c.world.shared.updateJob orgId id update).2 ∧
        ∃ row ∈ c.world.shared.jobs, row.orgId = orgId ∧ row.id = id) ∨
      (r ≠ .ok true ∧ s = (c.world.shared.updateJob orgId id update).2) ∨
      ∃ err, r = .error err ∧ s = c.world.shared := by
  rcases exec_cases hx with hperform | ⟨err, rfl, rfl | ⟨r', hperform⟩⟩
  · cases hperform
    rcases updateJob_cases c.world.shared orgId id update with ⟨hrow, hfound⟩ | hnone
    · exact .inl ⟨congrArg _ hfound, rfl, hrow⟩
    · refine .inr (.inl ⟨fun heq => ?_, rfl⟩)
      rw [hnone] at heq
      cases heq
  · exact .inr (.inr ⟨err, rfl, rfl⟩)
  · cases hperform
    exact .inr (.inl ⟨(nomatch ·), rfl⟩)

theorem writing_eq_of_ne {orgId : OrgId} {id : Uuid} {update : JobUpdate} {phase : Phase}
    {r : sig.Ans (.updateJob orgId id update)} (hr : r ≠ .ok true) :
    phase.after ⟨.updateJob orgId id update, r⟩ = phase.writing update false := by
  rcases r with err | _ | _
  · rfl
  · rfl
  · exact absurd rfl hr

/-- An update that is no completion leaves the board that it writes, or it fails. -/
theorem board_updateJob {orgId : OrgId} {id : Uuid} {update : JobUpdate}
    (hu : ∀ result, update ≠ .completed result) {r : sig.Ans (.updateJob orgId id update)}
    {phase : Pid → Phase}
    (hx : exec deps.similarity p (.updateJob orgId id update) i c.world.shared = some (r, s)) :
    s.board phase = { boardOf c with
        rows := (boardOf c).written orgId id update c.world.shared.clock
        phase := phase } ∨
      ∃ err, r = .error err ∧ s = c.world.shared := by
  rcases exec_updateJob hx with ⟨-, rfl, -⟩ | ⟨-, rfl⟩ | hskipped
  · exact .inl (updateJob_board _ (phaseOf c) _ _ _ hu)
  · exact .inl (updateJob_board _ (phaseOf c) _ _ _ hu)
  · exact .inr hskipped

theorem move_completed {entry : QueueEntry} {result : JobResult}
    {r : sig.Ans (.updateJob entry.data.orgId entry.data.jobRecordId (.completed result))}
    (hp : phaseOf c p = .taken entry)
    (hx : exec deps.similarity p
      (.updateJob entry.data.orgId entry.data.jobRecordId (.completed result)) i c.world.shared =
        some (r, s)) :
    (boardOf c).Move p ⟨.updateJob entry.data.orgId entry.data.jobRecordId (.completed result), r⟩
      (s.board (phasesAfter c p
        ⟨.updateJob entry.data.orgId entry.data.jobRecordId (.completed result), r⟩)) := by
  have hwriting : ∀ {r' : sig.Ans (.updateJob entry.data.orgId entry.data.jobRecordId
      (.completed result))}, r' ≠ .ok true → (phaseOf c p).after
        ⟨.updateJob entry.data.orgId entry.data.jobRecordId (.completed result), r'⟩ =
          phaseOf c p := by
    intro r' hr
    rw [writing_eq_of_ne hr, hp]
    rfl
  rcases exec_cases hx with hperform | ⟨err, rfl, rfl | ⟨r', hperform⟩⟩
  · cases hperform
    rcases updateJob_cases c.world.shared entry.data.orgId entry.data.jobRecordId
      (.completed result) with ⟨hrow, hfound⟩ | hnone
    · have hafter : (phaseOf c p).after ⟨.updateJob entry.data.orgId entry.data.jobRecordId
          (.completed result), .ok (c.world.shared.updateJob entry.data.orgId
            entry.data.jobRecordId (.completed result)).1⟩ = .completed entry := by
        rw [hp, hfound]
        rfl
      rw [phasesAfter_of_eq hafter, completed_board hrow, hfound]
      exact .complete entry result _ hp hrow
    · rw [hnone, phasesAfter_eq_self (hwriting fun h => by cases h)]
      exact .other _ _ c.world.shared.drawn (fun _ h => h) (fun _ _ h => by cases h)
        (fun _ _ h => by cases h) fun _ _ _ h => by cases h
  · exact move_of_skipped (fun _ _ h => by cases h) (fun _ _ h => by cases h)
      (hwriting fun h => by cases h)
  · cases hperform
    rw [phasesAfter_eq_self (hwriting fun h => by cases h)]
    rcases updateJob_cases c.world.shared entry.data.orgId entry.data.jobRecordId
      (.completed result) with ⟨hrow, -⟩ | hnone
    · rw [completed_board hrow]
      exact .completeLost entry result _ err hp
    · rw [hnone]
      exact .other _ _ c.world.shared.drawn (fun _ h => h) (fun _ _ h => by cases h)
        (fun _ _ h => by cases h) fun _ _ _ h => by cases h

theorem move_work {entry : QueueEntry} {update : JobUpdate}
    {r : sig.Ans (.updateJob entry.data.orgId entry.data.jobRecordId update)}
    (hu : (∃ n, update = .running n) ∨ ∃ n, update = .progress n)
    (hp : phaseOf c p = .taken entry)
    (hx : exec deps.similarity p (.updateJob entry.data.orgId entry.data.jobRecordId update) i
      c.world.shared = some (r, s)) :
    (boardOf c).Move p ⟨.updateJob entry.data.orgId entry.data.jobRecordId update, r⟩
      (s.board (phasesAfter c p
        ⟨.updateJob entry.data.orgId entry.data.jobRecordId update, r⟩)) := by
  have hne : ∀ result, update ≠ .completed result := by
    rintro result rfl
    rcases hu with ⟨n, hn⟩ | ⟨n, hn⟩ <;> cases hn
  have hafter : (phaseOf c p).after
      ⟨.updateJob entry.data.orgId entry.data.jobRecordId update, r⟩ = phaseOf c p := by
    rw [hp]
    rcases hu with ⟨n, rfl⟩ | ⟨n, rfl⟩ <;> cases r <;> rfl
  rw [phasesAfter_eq_self hafter]
  rcases board_updateJob hne hx with hboard | ⟨err, rfl, rfl⟩
  · rw [hboard]
    exact .work entry update _ r hp hu
  · exact .other _ _ c.world.shared.drawn (fun _ h => h) (fun _ _ h => by cases h)
      (fun _ _ h => by cases h) fun _ _ _ h => by cases h

theorem move_failed {entry : QueueEntry} {message : String}
    {r : sig.Ans (.updateJob entry.data.orgId entry.data.jobRecordId
      (.failed message entry.isLastAttempt))}
    (hp : phaseOf c p = .failed entry)
    (hx : exec deps.similarity p (.updateJob entry.data.orgId entry.data.jobRecordId
      (.failed message entry.isLastAttempt)) i c.world.shared = some (r, s)) :
    (boardOf c).Move p ⟨.updateJob entry.data.orgId entry.data.jobRecordId
        (.failed message entry.isLastAttempt), r⟩
      (s.board (phasesAfter c p ⟨.updateJob entry.data.orgId entry.data.jobRecordId
        (.failed message entry.isLastAttempt), r⟩)) := by
  have hafter : (phaseOf c p).after ⟨.updateJob entry.data.orgId entry.data.jobRecordId
      (.failed message entry.isLastAttempt), r⟩ = .over := by
    rw [hp]
    cases r <;> rfl
  rw [phasesAfter_of_eq hafter]
  rcases board_updateJob (fun _ h => by cases h) hx with hboard | ⟨err, rfl, rfl⟩
  · rw [hboard]
    exact .markFailed entry message _ r hp
  · exact .markFailedLost entry message err hp

theorem move_requeued {row : JobRow} {r : sig.Ans (.updateJob p.orgId row.id .requeued)}
    (hp : phaseOf c p = .replayable row)
    (hx : exec deps.similarity p (.updateJob p.orgId row.id .requeued) i c.world.shared =
      some (r, s)) :
    (boardOf c).Move p ⟨.updateJob p.orgId row.id .requeued, r⟩
      (s.board (phasesAfter c p ⟨.updateJob p.orgId row.id .requeued, r⟩)) := by
  by_cases hr : r = .ok true
  · subst hr
    have hafter : (phaseOf c p).after ⟨.updateJob p.orgId row.id .requeued, .ok true⟩ =
        .requeued row := by
      rw [hp]
      rfl
    rw [phasesAfter_of_eq hafter]
    rcases exec_updateJob hx with ⟨-, rfl, hrow⟩ | ⟨hne, -⟩ | ⟨err, herr, -⟩
    · rw [updateJob_board _ (phaseOf c) _ _ _ (fun _ h => by cases h)]
      exact .requeue row _ hp hrow
    · exact absurd rfl hne
    · cases herr
  · have hafter : (phaseOf c p).after ⟨.updateJob p.orgId row.id .requeued, r⟩ = .over := by
      rw [writing_eq_of_ne hr, hp]
      rfl
    rw [phasesAfter_of_eq hafter]
    rcases exec_cases hx with hperform | ⟨err, rfl, rfl | ⟨r', hperform⟩⟩
    · cases hperform
      rcases updateJob_cases c.world.shared p.orgId row.id .requeued with ⟨-, hfound⟩ | hnone
      · exact absurd (congrArg _ hfound) hr
      · rw [hnone]
        exact .requeueSkipped row _ hp
    · exact .requeueSkipped row _ hp
    · cases hperform
      rw [updateJob_board _ (phaseOf c) _ _ _ (fun _ h => by cases h)]
      exact .requeueLost row _ err hp

theorem move_updateJob {orgId : OrgId} {id : Uuid} {update : JobUpdate}
    {r : sig.Ans (.updateJob orgId id update)}
    (hrule : JobRule p op (transcript p c.world.history) (.updateJob orgId id update))
    (hx : exec deps.similarity p (.updateJob orgId id update) i c.world.shared = some (r, s)) :
    (boardOf c).Move p ⟨.updateJob orgId id update, r⟩
      (s.board (phasesAfter c p ⟨.updateJob orgId id update, r⟩)) := by
  cases update with
  | completed result =>
    obtain ⟨entry, hp, rfl, rfl⟩ := hrule
    exact move_completed hp hx
  | running attempt =>
    obtain ⟨entry, hp, rfl, rfl⟩ := hrule
    exact move_work (.inl ⟨attempt, rfl⟩) hp hx
  | progress percent =>
    obtain ⟨entry, hp, rfl, rfl⟩ := hrule
    exact move_work (.inr ⟨percent, rfl⟩) hp hx
  | failed message isFinalAttempt =>
    obtain ⟨entry, hp, rfl, rfl, rfl⟩ := hrule
    exact move_failed hp hx
  | requeued =>
    obtain ⟨rfl, row, hp, rfl⟩ := hrule
    exact move_requeued hp hx
  | enqueued bullJobId =>
    have hp : phaseOf c p = .over := hrule
    have hafter : (phaseOf c p).after ⟨.updateJob orgId id (.enqueued bullJobId), r⟩ =
        phaseOf c p := by
      rw [hp]
      cases r <;> rfl
    rw [phasesAfter_eq_self hafter]
    rcases board_updateJob (fun _ h => by cases h) hx with hboard | ⟨err, rfl, rfl⟩
    · rw [hboard]
      exact .note orgId id bullJobId _ r hp
    · exact .other _ _ c.world.shared.drawn (fun _ h => h) (fun _ _ h => by cases h)
        (fun _ _ h => by cases h) fun _ _ _ h => by cases h

/-- A command is a move of the board. -/
theorem move_of_exec {cmd : sig.Cmd} {r : sig.Ans cmd}
    (hrule : JobRule p op (transcript p c.world.history) cmd)
    (hx : exec deps.similarity p cmd i c.world.shared = some (r, s)) :
    (boardOf c).Move p ⟨cmd, r⟩ (s.board (phasesAfter c p ⟨cmd, r⟩)) := by
  cases cmd with
  | findJob orgId id => exact move_findJob hrule hx
  | createJobRow orgId apiKeyId payload priority => exact move_createJobRow hrule.1 hrule.2 hx
  | queueAdd data priority => exact move_queueAdd hrule.1 hrule.2 hx
  | queueTake orgId => exact move_queueTake hrule hx
  | queueComplete entry => exact move_queueComplete hrule hx
  | queueFail entry => exact move_queueFail hrule hx
  | publishJobProgress event => exact move_publishJobProgress hrule hx
  | updateJob orgId id update => exact move_updateJob hrule hx
  | writeOutboxEvent event =>
    cases event with
    | jobCompleted => exact nomatch hrule
    | _ => exact move_of_isJob rfl (fun _ _ h => by cases h) hx rfl
  | _ => exact move_of_isJob rfl (fun _ _ h => by cases h) hx rfl

end Exec

/-- Every step of the gateway is a move of the board, or leaves it as it is. -/
theorem move_of_steps (hconf : System.Conforms JobRule JobEnded c)
    (hstep : (gateway deps).Steps c a d) : boardOf d = boardOf c ∧ (∀ e, a ≠ .command e) ∨
      ∃ e, a = .command e ∧ (boardOf c).Move e.pid ⟨e.cmd, e.ans⟩ (boardOf d) := by
  cases hstep with
  | start => exact .inl ⟨rfl, fun _ h => by cases h⟩
  | drift hx =>
    refine .inl ⟨?_, fun _ h => by cases h⟩
    rename_i e s
    cases e <;> cases hx <;> rfl
  | @command p i P cmd k r s hp hk hx =>
    refine .inr ⟨_, rfl, ?_⟩
    have hboard : boardOf ⟨c.world.after ⟨p, cmd, r⟩ s,
        Function.update c.procs p (some { P with prog := k r })⟩ =
          s.board (phasesAfter c p ⟨cmd, r⟩) :=
      congrArg s.board phaseOf_after
    rw [hboard]
    exact move_of_exec (hconf.allowed hp hk) hx

end Moves

end CloudMesh.Gateway
