import CloudMesh.Outbox.Table

/-!
# Pollers beside each other

Any number of polls over one table, each of which may fail or stop anywhere, while others insert
rows. A poller marks a row only after its own publish of that row has resolved, and it publishes
only what it has read; what it has read is in the table, since nobody changes more than
`publishedAt`.

## Main definitions

- `Task`, `pollers` — what the processes run, and their system
- `Resolved` — a publish of a row has resolved
- `PollRule` — what a poller may do after what it has seen
- `LosesNothing` — what is promised of every run
- `losesNothing` — every run keeps it
-/

namespace CloudMesh.Outbox

open Concurrent

/-! ## The system -/

abbrev Pid := ℕ

inductive Task
  | poll (publisher : EventPublisher) (batchSize : ℕ)
  | poller (publisher : EventPublisher) (ticks : ℕ)

namespace Task

def publisher : Task → EventPublisher
  | .poll publisher _ | .poller publisher _ => publisher

def code : Task → Prog Unit
  | .poll publisher batchSize => do let _ ← pollOutbox publisher batchSize
  | .poller publisher ticks => startOutboxPoller publisher ticks

end Task

/-- The environment inserts rows. -/
def pollers : System sig Pid Table Input OutboxEvent Task (Except String Unit) where
  exec _ := exec
  drift row s := s.insert row
  code _ task := task.code.run

abbrev PollConfig := Config sig Pid Table Task (Except String Unit)

/-! ## What is promised -/

section Promise

/-- The publisher has published the contents of the row under its id, and it has resolved. -/
def Resolved (publisher : EventPublisher) (row : OutboxEvent) (t : Transcript sig) : Prop :=
  ∃ t₀ t₁, t₁ <:+ t ∧ (publisher.publish row.eventType row.payload row.id).Ends t₀ () t₁

def PublishResolved (c : PollConfig) (row : OutboxEvent) : Prop :=
  ∃ p P, c.procs p = some P ∧ Resolved P.op.publisher row (transcript p c.world.history)

/-- The command sends something to the outside. -/
def Cmd.publishes : Cmd → Bool
  | .jsPublish .. | .log .. => true
  | _ => false

/-- The other pending rows that a scan may put before the row. -/
def Table.ahead (s : Table) (row : OutboxEvent) : List OutboxEvent :=
  s.pending.filter fun other => other ≠ row ∧ other.createdAt ≤ row.createdAt

/-- The rows that are inserted in a run, as they are written. -/
def inserts (ls : List (Label Pid Input OutboxEvent Task)) : List OutboxEvent :=
  ls.filterMap fun
    | .drift row => some row.written
    | _ => none

/-- After the run `ls`, the configuration has lost nothing and invented nothing. -/
structure LosesNothing (ls : List (Label Pid Input OutboxEvent Task)) (c : PollConfig) : Prop where
  marked : ∀ row ∈ c.world.shared.rows, row.publishedAt ≠ none → PublishResolved c row
  pending : ∀ row ∈ inserts ls, ¬PublishResolved c row → row ∈ c.world.shared.pending ∧
    ∀ take i rows s', exec (.findMany take) i c.world.shared = some (.ok rows, s') →
      (c.world.shared.ahead row).length < take → row ∈ rows
  identified : ∀ e ∈ c.world.history, e.cmd.publishes = true → ∃ P, c.procs e.pid = some P ∧
    ∃ row ∈ c.world.shared.rows,
      (P.op.publisher.publish row.eventType row.payload row.id).run.Issues e.cmd
  onBus : ∀ p P toISOString subject data msgID r, c.procs p = some P →
    P.op.publisher = natsEventPublisher toISOString →
    (⟨p, .jsPublish subject data msgID, r⟩ : Event sig Pid) ∈ c.world.history →
      ∃ row ∈ c.world.shared.rows, ∃ now, subject = subjectFor row.eventType ∧ msgID = row.id ∧
        data = EventEnvelope.encode ⟨row.id, row.eventType, toISOString now, row.payload⟩
  unchanged : c.world.shared.contents = inserts ls

end Promise

/-! ## Following the code -/

section Triples

variable {publisher : EventPublisher} {row event : OutboxEvent} {t t' : Transcript sig}

/-- A scan has returned the row. -/
def Scanned (row : OutboxEvent) (t : Transcript sig) : Prop :=
  ∃ take rows, (⟨.findMany take, .ok rows⟩ : Exchange sig) ∈ t ∧ row ∈ rows

theorem Scanned.mono (h : Scanned row t) (hle : t <:+ t') : Scanned row t' := by
  obtain ⟨take, rows, hmem, hrow⟩ := h
  exact ⟨take, rows, hle.mem hmem, hrow⟩

theorem Resolved.mono (h : Resolved publisher row t) (hle : t <:+ t') :
    Resolved publisher row t' := by
  obtain ⟨t₀, t₁, hsuf, hends⟩ := h
  exact ⟨t₀, t₁, hsuf.trans hle, hends⟩

/-- A publish is of a row that has been read, and a row is marked after its publish. -/
def PollRule (publisher : EventPublisher) (t : Transcript sig) (c : Cmd) : Prop :=
  match c with
  | .update id _ => ∃ row, Scanned row t ∧ row.id = id ∧ Resolved publisher row t
  | .jsPublish .. | .log .. => ∃ row, Scanned row t ∧
    (publisher.publish row.eventType row.payload row.id).run.Issues c
  | .findMany _ | .dateNow | .onError _ => True

theorem publish_triple : Handler.Triple (PollRule publisher) (Scanned event)
    (publisher.publish event.eventType event.payload event.id)
    (fun _ t => Scanned event t ∧ Resolved publisher event t) fun _ _ => True := by
  intro t ht
  have hcmds := (Program.every_issues _).and
    (publisher.foreign event.eventType event.payload event.id)
  refine (Program.follows_ends hcmds ?_).mono (fun _ _ h => h) ?_
  · rintro t' hle c ⟨hissues, hforeign⟩
    cases c with
    | findMany | update => cases hforeign
    | jsPublish | log => exact ⟨event, ht.mono hle, hissues⟩
    | dateNow | onError => trivial
  · intro r t' hends
    cases r with
    | error err => trivial
    | ok => exact ⟨ht.mono hends.suffix, t, t', List.suffix_rfl, hends⟩

theorem publishEvent_triple : Handler.Triple (PollRule publisher) (Scanned event)
    (publishEvent publisher event) (fun _ _ => True) fun _ _ => True := by
  refine Handler.Triple.tryCatch (F := fun _ _ => True) ?_ fun _ => .pure fun _ _ => trivial
  refine publish_triple.bind fun _ => ?_
  refine Handler.Triple.bind (Q := fun _ t => Scanned event t ∧ Resolved publisher event t) ?_
    fun now => Handler.Triple.bind (Q := fun _ _ => True) ?_ fun _ => .pure fun _ _ => trivial
  · refine Program.Triple.call (fun _ _ => trivial) fun t r ht => ?_
    cases r with
    | error err => trivial
    | ok now => exact ⟨ht.1.mono (List.suffix_cons _ _), ht.2.mono (List.suffix_cons _ _)⟩
  · refine Program.Triple.call (fun t ht => ⟨event, ht.1, rfl, ht.2⟩) fun t r _ => ?_
    cases r <;> trivial

theorem publishAll_triple (pending : List OutboxEvent) :
    Handler.Triple (PollRule publisher) (fun t => ∀ event ∈ pending, Scanned event t)
      (publishAll publisher pending) (fun _ _ => True) fun _ _ => True := by
  induction pending with
  | nil => exact .pure fun _ _ => trivial
  | cons event pending ih =>
    have hhead := (@publishEvent_triple publisher event).frame
      (F := fun t => ∀ event ∈ pending, Scanned event t)
      (fun t e h other hmem => (h other hmem).mono (List.suffix_cons _ _)) fun _ _ h _ => h
    refine Handler.Triple.bind (Q := fun _ t => ∀ event ∈ pending, Scanned event t)
      (hhead.conseq (fun t h => ?_) (fun _ _ h => h.2) fun _ _ _ => trivial) fun published =>
        ih.bind fun rest => .pure fun _ _ => trivial
    exact ⟨h event List.mem_cons_self, fun other hmem => h other (List.mem_cons_of_mem _ hmem)⟩

theorem pollOutbox_triple (batchSize : ℕ) : Handler.Triple (PollRule publisher) (fun _ => True)
    (pollOutbox publisher batchSize) (fun _ _ => True) fun _ _ => True := by
  refine Handler.Triple.bind (Q := fun pending t => ∀ event ∈ pending, Scanned event t) ?_
    fun pending => (publishAll_triple pending).bind fun _ => .pure fun _ _ => trivial
  refine Program.Triple.call (fun _ _ => trivial) fun t r _ => ?_
  cases r with
  | error err => trivial
  | ok pending => exact fun event hmem => ⟨batchSize, pending, List.mem_cons_self, hmem⟩

theorem startOutboxPoller_triple (ticks : ℕ) : Handler.Triple (PollRule publisher)
    (fun _ => True) (startOutboxPoller publisher ticks) (fun _ _ => True) fun _ _ => True := by
  induction ticks with
  | zero => exact .pure fun _ _ => trivial
  | succ ticks ih =>
    refine Handler.Triple.bind (Q := fun _ _ => True) ?_ fun _ => ih
    refine Handler.Triple.tryCatch (F := fun _ _ => True)
      ((pollOutbox_triple _).bind fun _ => .pure fun _ _ => trivial) fun err => ?_
    exact Program.Triple.call (fun _ _ => trivial) fun _ r _ => by cases r <;> trivial

theorem obeys_pollRule :
    pollers.Obeys (fun _ task => PollRule task.publisher) fun _ _ _ _ => True := by
  intro p task
  have htask : Handler.Triple (PollRule task.publisher) (fun _ => True) task.code
      (fun _ _ => True) fun _ _ => True := by
    cases task with
    | poll publisher batchSize =>
      exact (pollOutbox_triple batchSize).bind fun _ => .pure fun _ _ => trivial
    | poller publisher ticks => exact startOutboxPoller_triple ticks
  exact (htask [] trivial).mono (fun _ _ h => h) fun _ _ _ => trivial

end Triples

/-! ## Single commands -/

section Commands

variable {c : sig.Cmd} {r : sig.Ans c} {i : Input} {s s' : Table} {rows : List OutboxEvent}
  {row : OutboxEvent} {take : ℕ}

/-- Only an update changes the table. -/
theorem table_of_exec (h : exec c i s = some (r, s')) :
    s' = s ∨ ∃ id publishedAt, c = .update id publishedAt ∧ s' = s.mark id publishedAt := by
  have hperform : ∀ choice r', s.perform c choice = some (r', s') →
      s' = s ∨ ∃ id publishedAt, c = .update id publishedAt ∧ s' = s.mark id publishedAt := by
    intro choice r' hr
    cases c with
    | findMany take =>
      cases choice with
      | nothing | now => cases hr
      | arranged rows =>
        simp only [Table.perform] at hr
        split at hr <;> cases hr
        exact .inl rfl
    | update id publishedAt =>
      cases choice with
      | now | arranged => cases hr
      | nothing =>
        simp only [Table.perform] at hr
        split at hr <;> cases hr
        · exact .inr ⟨id, publishedAt, rfl, rfl⟩
        · exact .inl rfl
    | dateNow | jsPublish | log | onError =>
      cases choice <;> cases hr
      exact .inl rfl
  unfold exec at h
  split at h
  · exact hperform i.choice r h
  · split at h
    · obtain ⟨⟨r', s''⟩, hr, heq⟩ := Option.map_eq_some_iff.mp h
      cases heq
      exact hperform i.choice r' hr
    · cases h
      exact .inl rfl

theorem arranged_of_exec (h : exec (.findMany take) i s = some (.ok rows, s')) :
    s' = s ∧ ∃ arranged, s.Arranges arranged ∧ rows = arranged.take take := by
  obtain ⟨choice, fault⟩ := i
  cases fault with
  | some fault =>
    simp only [exec] at h
    split at h
    · obtain ⟨out, -, heq⟩ := Option.map_eq_some_iff.mp h
      cases heq
    · cases h
  | none =>
    cases choice with
    | nothing | now => cases h
    | arranged arranged =>
      simp only [exec, Table.perform] at h
      split at h
      · rename_i hsorted
        cases h
        exact ⟨rfl, arranged, hsorted, rfl⟩
      · cases h

theorem pending_nodup (s : Table) : s.pending.Nodup :=
  (List.Nodup.of_map _ s.nodup).filter _

/-- A row is within the batch if fewer rows are before it. -/
theorem mem_take_of_arranges (hsorted : s.Arranges rows) (hrow : row ∈ s.pending)
    (hahead : (s.ahead row).length < take) : row ∈ rows.take take := by
  obtain ⟨hperm, hpair⟩ := hsorted
  obtain ⟨before, later, rfl⟩ := List.append_of_mem (hperm.mem_iff.mpr hrow)
  have hnodup := hperm.nodup_iff.mpr (pending_nodup s)
  have hall : ∀ other ∈ before, other ≠ row ∧ other.createdAt ≤ row.createdAt := by
    intro other hmem
    refine ⟨?_, (List.pairwise_append.mp hpair).2.2 other hmem row List.mem_cons_self⟩
    rintro rfl
    exact (List.nodup_append.mp hnodup).2.2 other hmem other List.mem_cons_self rfl
  have hlength : before.length ≤ (s.ahead row).length := by
    have hfilter :=
      (hperm.filter fun other => other ≠ row ∧ other.createdAt ≤ row.createdAt).length_eq
    have hkept : before.filter (fun other => other ≠ row ∧ other.createdAt ≤ row.createdAt) =
        before := List.filter_eq_self.mpr fun other hmem => decide_eq_true (hall other hmem)
    rw [List.filter_append, hkept, List.length_append] at hfilter
    unfold Table.ahead
    omega
  have hprefix : before ++ [row] <+: (before ++ row :: later).take take := by
    refine List.prefix_take_iff.mpr ⟨⟨later, by simp⟩, ?_⟩
    simp only [List.length_append, List.length_singleton]
    omega
  exact hprefix.mem (List.mem_append_right _ (List.mem_singleton_self row))

end Commands

/-! ## The invariant -/

section Sound

variable {c d : PollConfig} {a : Action sig Pid OutboxEvent Task} {row : OutboxEvent}

/-- Marked rows have been published, and what has been read is in the table. -/
structure Sound (c : PollConfig) : Prop where
  marked : ∀ row ∈ c.world.shared.rows, row.publishedAt ≠ none → PublishResolved c row
  seen : ∀ p take rows, (⟨p, .findMany take, .ok rows⟩ : Event sig Pid) ∈ c.world.history →
    ∀ row ∈ rows, row ∈ c.world.shared.contents

theorem Sound.contents_of_scanned (hi : Sound c) {p : Pid}
    (h : Scanned row (transcript p c.world.history)) : row ∈ c.world.shared.contents := by
  obtain ⟨take, rows, hmem, hrow⟩ := h
  exact hi.seen p take rows (mem_transcript.mp hmem) row hrow

theorem publishResolved_step (hstep : pollers.Steps c a d) (h : PublishResolved c row) :
    PublishResolved d row := by
  obtain ⟨p, P, hP, hresolved⟩ := h
  cases hstep with
  | @start q task hq =>
    have hne : p ≠ q := by
      rintro rfl
      cases hq.symm.trans hP
    exact ⟨p, P, (Function.update_of_ne hne _ c.procs).trans hP, hresolved⟩
  | @command q i Q cmd k r s hQ hk hx =>
    have hmono := hresolved.mono (transcript_suffix (p := p)
      (List.suffix_cons ⟨q, cmd, r⟩ c.world.history))
    by_cases hpq : p = q
    · subst hpq
      obtain rfl := Option.some.inj (hP.symm.trans hQ)
      exact ⟨p, _, Function.update_self p _ c.procs, hmono⟩
    · exact ⟨p, P, (Function.update_of_ne hpq _ c.procs).trans hP, hmono⟩
  | drift => exact ⟨p, P, hP, hresolved⟩

abbrev PollConforms (c : PollConfig) : Prop :=
  System.Conforms (fun _ task => PollRule task.publisher) (fun _ _ _ _ => True) c

theorem sound_step (hconf : PollConforms c) (hi : Sound c) (hstep : pollers.Steps c a d) :
    Sound d := by
  have hresolved := fun row => @publishResolved_step c d a row hstep
  cases hstep with
  | start => exact ⟨fun row hrow hmark => hresolved row (hi.marked row hrow hmark), hi.seen⟩
  | @drift row s hx =>
    have hrows := Table.rows_of_insert hx
    refine ⟨fun row' hrow' hmark => ?_, fun p take rows hmem row' hrow' => ?_⟩
    · rw [hrows] at hrow'
      rcases List.mem_append.mp hrow' with hold | hnew
      · exact hresolved row' (hi.marked row' hold hmark)
      · cases List.mem_singleton.mp hnew
        exact absurd rfl hmark
    · unfold Table.contents
      rw [hrows, List.map_append]
      exact List.mem_append_left _ (hi.seen p take rows hmem row' hrow')
  | @command p i P cmd k r s hP hk hx =>
    have hallowed := hconf.allowed hP hk
    have hcontents : s.contents = c.world.shared.contents := by
      rcases table_of_exec hx with rfl | ⟨id, publishedAt, rfl, rfl⟩
      · rfl
      · exact Table.contents_mark _ _
    refine ⟨fun row hrow hmark => ?_, fun q take rows hmem row hrow => ?_⟩
    · rcases table_of_exec hx with rfl | ⟨id, publishedAt, rfl, rfl⟩
      · exact hresolved row (hi.marked row hrow hmark)
      · obtain ⟨old, hold, rfl⟩ := List.mem_map.mp hrow
        by_cases hid : old.id = id
        · -- the row with this id is the one that has been read and published
          obtain ⟨read, hscanned, hread, hdone⟩ := hallowed
          obtain ⟨row', hrow', rfl⟩ := List.mem_map.mp (hi.contents_of_scanned hscanned)
          obtain rfl := Table.eq_of_id hrow' hold (hread.trans hid.symm)
          refine hresolved _ ⟨p, P, hP, ?_⟩
          have hsame : ∀ row : OutboxEvent, Resolved P.op.publisher row.written =
              Resolved P.op.publisher row := fun _ => rfl
          rwa [← hsame, OutboxEvent.marked_written]
        · rw [OutboxEvent.marked_of_ne hid] at hmark ⊢
          exact hresolved old (hi.marked old hold hmark)
    · show row ∈ s.contents
      rw [hcontents]
      rcases List.mem_cons.mp hmem with heq | hold
      · cases heq
        obtain ⟨-, arranged, ⟨hperm, -⟩, rfl⟩ := arranged_of_exec hx
        have hpending := Table.mem_pending.mp (hperm.mem_iff.mp (List.mem_of_mem_take hrow))
        exact List.mem_map.mpr ⟨row, hpending.1, OutboxEvent.written_eq hpending.2⟩
      · exact hi.seen q take rows hold row hrow

theorem sound_init : Sound (.init .empty) := ⟨nofun, nofun⟩

end Sound

/-! ## Runs -/

section Runs

variable {c d : PollConfig} {ls : List (Label Pid Input OutboxEvent Task)}

/-- Nothing but `publishedAt` is changed, and rows come only from inserts. -/
theorem contents_run (hrun : pollers.run c ls = some d) :
    d.world.shared.contents = c.world.shared.contents ++ inserts ls := by
  induction ls generalizing c with
  | nil =>
    cases hrun
    simp [inserts]
  | cons l ls ih =>
    obtain ⟨a, e, hl, hls⟩ := System.run_cons.mp hrun
    rw [ih hls]
    cases l with
    | start p task =>
      obtain ⟨-, -, rfl⟩ := System.next_start_eq_some.mp hl
      rfl
    | step p i =>
      obtain ⟨P, cmd, k, r, s, -, -, hx, -, rfl⟩ := System.next_step_eq_some.mp hl
      have hcontents : s.contents = c.world.shared.contents := by
        rcases table_of_exec hx with rfl | ⟨id, publishedAt, rfl, rfl⟩
        · rfl
        · exact Table.contents_mark _ _
      rw [World.after_shared, hcontents]
      rfl
    | drift row =>
      obtain ⟨s, hx, -, rfl⟩ := System.next_drift_eq_some.mp hl
      have hcontents : s.contents = c.world.shared.contents ++ [row.written] := by
        unfold Table.contents
        rw [Table.rows_of_insert hx, List.map_append]
        rfl
      rw [hcontents, List.append_assoc]
      rfl

theorem identified_of_conforms (hconf : PollConforms c) (hi : Sound c) {e : Event sig Pid}
    (he : e ∈ c.world.history) (hpublishes : e.cmd.publishes = true) :
    ∃ P, c.procs e.pid = some P ∧ ∃ row ∈ c.world.shared.rows,
      (P.op.publisher.publish row.eventType row.payload row.id).run.Issues e.cmd := by
  obtain ⟨P, hist, hP, hsuf, hrule⟩ := hconf.exists_of_mem he
  have hscanned : ∃ row, Scanned row (transcript e.pid hist) ∧
      (P.op.publisher.publish row.eventType row.payload row.id).run.Issues e.cmd := by
    obtain ⟨p, cmd, r⟩ := e
    cases cmd with
    | jsPublish | log => exact hrule
    | findMany | update | dateNow | onError => cases hpublishes
  obtain ⟨read, hread, hissues⟩ := hscanned
  have hle : hist <:+ c.world.history := (List.suffix_cons e hist).trans hsuf
  obtain ⟨row, hrow, rfl⟩ := List.mem_map.mp
    (hi.contents_of_scanned (hread.mono (transcript_suffix hle)))
  exact ⟨P, hP, row, hrow, hissues⟩

/-- The bus is given the id of the row twice: in the envelope, and to tell duplicates. -/
theorem publish_every (toISOString : ℤ → String) (eventType payload eventId : String) :
    Handler.Every (fun c : Cmd => c = .dateNow ∨ ∃ now, c = .jsPublish (subjectFor eventType)
      (EventEnvelope.encode ⟨eventId, eventType, toISOString now, payload⟩) eventId)
      (publish toISOString eventType payload eventId) := by
  refine ⟨.inl rfl, fun answer => ?_⟩
  cases answer with
  | ok now => exact ⟨.inr ⟨now, rfl⟩, fun _ => trivial⟩
  | error _ => trivial

end Runs

/-- **The outbox loses nothing**: with any number of pollers, failing commands and stops, a marked
row has been published, one that has not been is still to come, and a row is published under its
own id. -/
theorem losesNothing (ls : List (Label Pid Input OutboxEvent Task)) (c : PollConfig)
    (hrun : pollers.run (.init .empty) ls = some c) : LosesNothing ls c := by
  have hconf : PollConforms c := System.conforms_run obeys_pollRule hrun
  have hi : Sound c := System.invariant_run obeys_pollRule
    (fun _ _ _ hconf hi (_ : True) hstep => sound_step hconf hi hstep) (System.conforms_init _)
    sound_init hrun (System.along_of_forall (fun _ _ => trivial) _ _)
  have hcontents : c.world.shared.contents = inserts ls := (contents_run hrun).trans rfl
  refine ⟨hi.marked, fun row hrow hnot => ?_, fun e he hpublishes =>
    identified_of_conforms hconf hi he hpublishes, ?_, hcontents⟩
  · obtain ⟨row', hrow', rfl⟩ := List.mem_map.mp (hcontents.symm ▸ hrow)
    have hnone : row'.publishedAt = none := by
      by_contra hmark
      exact hnot (hi.marked row' hrow' hmark)
    rw [OutboxEvent.written_eq hnone]
    have hpending := Table.mem_pending.mpr ⟨hrow', hnone⟩
    refine ⟨hpending, fun take i rows s' hx hahead => ?_⟩
    obtain ⟨-, arranged, hsorted, rfl⟩ := arranged_of_exec hx
    exact mem_take_of_arranges hsorted hpending hahead
  · intro p P toISOString subject data msgID r hP hnats hmem
    obtain ⟨P', hP', row, hrow, hissues⟩ := identified_of_conforms hconf hi hmem rfl
    obtain rfl := Option.some.inj (hP.symm.trans hP')
    rw [hnats] at hissues
    rcases hissues.of_every (publish_every toISOString row.eventType row.payload row.id) with
      h | ⟨now, h⟩
    · cases h
    · cases h
      exact ⟨row, hrow, now, rfl, rfl, rfl⟩

/-! ### Two replicas -/

def recorded : OutboxEvent := ⟨"e-1", "usage.recorded", "\x7b\x7d", none, 1⟩

def warning : OutboxEvent := ⟨"e-2", "budget.warning", "\x7b\x7d", none, 2⟩

def bus : EventPublisher := natsEventPublisher fun _ => "1970-01-01T00:00:00.000Z"

/-- Both replicas read the first row. One of them marks it; the other one gets no acknowledgement,
goes on with the second row and stops before it marks it. -/
def twoReplicas : List (Label Pid Input OutboxEvent Task) :=
  [.drift recorded, .drift warning, .start 0 (.poll bus 1), .start 1 (.poller bus 3),
    .step 0 ⟨.arranged [recorded, warning], none⟩, .step 1 ⟨.arranged [recorded, warning], none⟩,
    .step 0 ⟨.now 10, none⟩, .step 0 ⟨.nothing, none⟩,
    .step 1 ⟨.now 11, none⟩, .step 1 ⟨.nothing, some ("timeout", true)⟩,
    .step 0 ⟨.now 12, none⟩, .step 0 ⟨.nothing, none⟩,
    .step 1 ⟨.now 13, none⟩, .step 1 ⟨.nothing, none⟩]

theorem losesNothing_twoReplicas : ∃ c, pollers.run (.init .empty) twoReplicas = some c ∧
    LosesNothing twoReplicas c ∧
    c.world.shared.rows = [{ recorded with publishedAt := some 12 }, warning] := by
  have hres : (pollers.run (.init .empty) twoReplicas).map (fun c => decide
      (c.world.shared.rows = [{ recorded with publishedAt := some 12 }, warning])) = some true := by
    decide
  obtain ⟨c, hrun, hc⟩ := Option.map_eq_some_iff.mp hres
  exact ⟨c, hrun, losesNothing twoReplicas c hrun, of_decide_eq_true hc⟩

end CloudMesh.Outbox
