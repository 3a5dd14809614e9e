import CloudMesh.Jobs.Live

/-!
# Stranded jobs

A row that is not completed is executed through its entry in the queue, or it is dead and can be
replayed. Between its row write and its `queue.add` an operation owes the row an entry, and a worker
whose last attempt has failed owes it the status of a dead job. What is owed and never done strands
the row: it has no entry, and `replayJob` refuses it.

## Main definitions

- `Recoverable` — the row is completed, has an entry, or is accepted by `replayJob`
- `MidWay` — some process owes the row something
- `Untorn` — no step leaves anything owed behind
- `Tidy` — what holds of rows, entries and workers in every run
-/

namespace CloudMesh.Gateway

open Concurrent

/-- `replayJob` accepts dead jobs only. -/
def Recoverable (s : Store) (row : JobRow) : Prop :=
  row.status = .completed ∨ s.liveEntries row.id ≠ [] ∨ row.status = .deadLetter

def JobRow.Unsettled (row : JobRow) : Prop := row.status ≠ .completed ∧ row.status ≠ .deadLetter

instance (row : JobRow) : Decidable row.Unsettled := inferInstanceAs (Decidable (_ ∧ _))

namespace Phase

/-- The process owes the row an entry, or the status of a dead job. -/
def Owing (id : Uuid) : Phase → Prop
  | .created id' => id' = id
  | .requeued row => row.id = id
  | .failed entry => entry.isLastAttempt = true ∧ entry.data.jobRecordId = id
  | _ => False

instance (id : Uuid) (phase : Phase) : Decidable (phase.Owing id) := by
  unfold Owing
  split <;> infer_instance

end Phase

/-- Some process owes the row something, whether it goes on or has stopped. -/
def MidWay (c : GatewayConfig) (id : Uuid) : Prop :=
  ∃ e ∈ c.world.history, (phaseOf c e.pid).Owing id

instance (c : GatewayConfig) (id : Uuid) : Decidable (MidWay c id) :=
  inferInstanceAs (Decidable (∃ e ∈ c.world.history, _))

/-- A row write that is answered by an error has not been applied, a `queue.add` has, the last
failure of an entry gets as far as the row, and an earlier one is not written over the outcome of
the job. -/
def Untorn (c : GatewayConfig) (a : Action sig Pid Drift Op) (d : GatewayConfig) : Prop :=
  match a with
  | .command ⟨_, .createJobRow .., .error _⟩ | .command ⟨_, .updateJob _ _ .requeued, .error _⟩ =>
    d.world.shared.jobs = c.world.shared.jobs
  | .command ⟨_, .queueAdd .., .error _⟩ => d.world.shared.queue ≠ c.world.shared.queue
  | .command ⟨_, .queueFail entry, .error _⟩ =>
    entry.isLastAttempt = true → d.world.shared.active = c.world.shared.active
  | .command ⟨_, .updateJob _ id (.failed _ true), .error _⟩ =>
    ∀ row ∈ d.world.shared.jobs, row.id = id → row.status = .deadLetter
  | .command ⟨_, .updateJob _ id (.failed _ false), _⟩ =>
    ∀ row ∈ c.world.shared.jobs, row.id = id → row.Unsettled
  | _ => True

instance (c : GatewayConfig) (a : Action sig Pid Drift Op) (d : GatewayConfig) :
    Decidable (Untorn c a d) := by
  unfold Untorn
  split <;> infer_instance

namespace Phase

/-- The attempt is over, and the row has its outcome. -/
def Closing (entry : QueueEntry) (phase : Phase) : Prop :=
  phase = .completed entry ∨ phase = .announced entry

theorem Closing.held {entry : QueueEntry} {phase : Phase} (h : phase.Closing entry) :
    phase.held = some entry := by
  rcases h with rfl | rfl <;> rfl

/-- A worker with an entry owes nothing. -/
theorem not_owing_of_held {entry : QueueEntry} {phase : Phase} (h : phase.held = some entry)
    (id : Uuid) : ¬phase.Owing id := by
  cases phase <;> first | exact fun ho => ho | cases h

theorem not_owing_of_unbegun {phase : Phase} (h : phase = .idle ∨ ∃ row, phase = .replayable row)
    (id : Uuid) : ¬phase.Owing id := by
  rcases h with rfl | ⟨row, rfl⟩ <;> exact fun ho => ho

theorem Owing.reading {id : Uuid} {phase : Phase} (h : phase.Owing id) (found : Option JobRow) :
    (phase.reading found).Owing id := by
  cases phase with
  | idle | replayable row => exact nomatch h
  | _ => exact h

theorem not_closing_over (entry : QueueEntry) : ¬Phase.over.Closing entry := by
  rintro (h | h) <;> cases h

end Phase

/-! ## Rows, entries and workers -/

/-- The row that a process works on. -/
def Phase.subject (p : Pid) : Phase → Option (OrgId × Uuid)
  | .created id => some (p.orgId, id)
  | .requeued row => some (p.orgId, row.id)
  | .taken entry | .completed entry | .unannounced entry | .announced entry | .failed entry =>
    some (entry.data.orgId, entry.data.jobRecordId)
  | .idle | .replayable _ | .over => none

namespace Board

variable {b : Board} {p : Pid}

def Has (b : Board) (orgId : OrgId) (id : Uuid) : Prop :=
  ∃ row ∈ b.rows, row.orgId = orgId ∧ row.id = id

/-- Entries and rows have ids of their own, a worker's entry is its own, and whatever is worked on
has a row of the same org. -/
structure Tidy (b : Board) : Prop where
  nodup : ((b.queue ++ b.active).map QueueEntry.bullJobId).Nodup
  numbers : ∀ entry ∈ b.queue ++ b.active, ∃ n ≤ b.added, entry.bullJobId = toString n
  held : ∀ p entry, (b.phase p).held = some entry → entry ∈ b.active
  alone : ∀ p q entry, (b.phase p).held = some entry → (b.phase q).held = some entry → p = q
  rows : ∀ row ∈ b.rows, row.id.text ∈ b.drawn
  orgs : ∀ row ∈ b.rows, ∀ row' ∈ b.rows, row.id = row'.id → row.orgId = row'.orgId
  entries : ∀ entry ∈ b.queue ++ b.active, b.Has entry.data.orgId entry.data.jobRecordId
  subjects : ∀ p orgId id, (b.phase p).subject p = some (orgId, id) → b.Has orgId id

theorem Tidy.draw (ht : b.Tidy) {drawn : List String} (hd : b.drawn ⊆ drawn) :
    Tidy { b with drawn := drawn } :=
  ⟨ht.nodup, ht.numbers, ht.held, ht.alone, fun r hr => hd (ht.rows r hr),
    ht.orgs, ht.entries, ht.subjects⟩

theorem has_written {orgId o : OrgId} {id i : Uuid} {update : JobUpdate} {now : ℤ}
    (h : b.Has o i) {completions : List Uuid} :
    Has { b with rows := b.written orgId id update now, completions := completions } o i := by
  obtain ⟨row, hrow, horg, hid⟩ := h
  refine ⟨_, List.mem_map_of_mem hrow, ?_⟩
  split
  · exact ⟨(update.orgId_apply now row).trans horg, (update.id_apply now row).trans hid⟩
  · exact ⟨horg, hid⟩

theorem Tidy.written (ht : b.Tidy) (orgId : OrgId) (id : Uuid) (update : JobUpdate) (now : ℤ)
    (completions : List Uuid) :
    Tidy { b with rows := b.written orgId id update now, completions := completions } := by
  refine ⟨ht.nodup, ht.numbers, ht.held, ht.alone, fun r hr => ?_, fun r hr r' hr' hid => ?_,
    fun e he => has_written (ht.entries e he), fun p o i h => has_written (ht.subjects p o i h)⟩
  · obtain ⟨row, hrow, heq, -⟩ := mem_written hr
    exact heq ▸ ht.rows row hrow
  · obtain ⟨row, hrow, heq, horg, -⟩ := mem_written hr
    obtain ⟨row', hrow', heq', horg', -⟩ := mem_written hr'
    rw [horg, horg']
    exact ht.orgs row hrow row' hrow' (heq.symm.trans (hid.trans heq'))

/-- A process may enter a phase if its entry is its own and its row is there. -/
theorem Tidy.enter (ht : b.Tidy) {phase : Phase}
    (hheld : ∀ entry, phase.held = some entry → entry ∈ b.active ∧
      ∀ q, q ≠ p → (b.phase q).held ≠ some entry)
    (hsubject : ∀ orgId id, phase.subject p = some (orgId, id) → b.Has orgId id) :
    (b.enter p phase).Tidy := by
  refine ⟨ht.nodup, ht.numbers, ?_, ?_, ht.rows, ht.orgs, ht.entries, ?_⟩
  · exact forall_enter (P := fun _ phase => ∀ e, phase.held = some e → e ∈ b.active)
      (fun e he => (hheld e he).1) fun q _ => ht.held q
  · refine forall_enter (P := fun q phase => ∀ q' e, phase.held = some e →
      ((b.enter p _).phase q').held = some e → q = q') (fun q' e he => ?_) fun q hqp q' e he => ?_
    · revert q'
      exact forall_enter (P := fun q' phase => phase.held = some e → p = q') (fun _ => rfl)
        fun q' hqp' he' => absurd he' ((hheld e he).2 q' hqp')
    · revert q'
      exact forall_enter (P := fun q' phase => phase.held = some e → q = q')
        (fun he' => absurd he ((hheld e he').2 q hqp)) fun q' _ he' => ht.alone q q' e he he'
  · exact forall_enter (P := fun q phase => ∀ o i, phase.subject q = some (o, i) → b.Has o i)
      hsubject fun q _ => ht.subjects q

theorem Tidy.enter_over (ht : b.Tidy) : (b.enter p .over).Tidy :=
  ht.enter (fun _ h => by cases h) fun _ _ h => by cases h

/-- A worker may enter another phase with its entry. -/
theorem Tidy.enter_held (ht : b.Tidy) {entry : QueueEntry} {phase : Phase}
    (hp : (b.phase p).held = some entry) (hphase : phase.held = some entry) :
    (b.enter p phase).Tidy := by
  refine ht.enter (fun e he => ?_) fun orgId id h => ?_
  · cases hphase.symm.trans he
    exact ⟨ht.held p entry hp, fun q hqp hq => hqp (ht.alone q p entry hq hp)⟩
  · have hsubject : phase.subject p = some (entry.data.orgId, entry.data.jobRecordId) := by
      cases phase <;> cases hphase <;> rfl
    cases hsubject.symm.trans h
    exact ht.entries entry (List.mem_append_right _ (ht.held p entry hp))

theorem Tidy.append_row (ht : b.Tidy) {row : JobRow} (hfresh : row.id.text ∉ b.drawn) :
    Tidy { b with rows := b.rows ++ [row], drawn := row.id.text :: b.drawn } := by
  have hhas : ∀ {o i}, b.Has o i →
      Has { b with rows := b.rows ++ [row], drawn := row.id.text :: b.drawn } o i :=
    fun ⟨r, hr, h⟩ => ⟨r, List.mem_append_left _ hr, h⟩
  have hne : ∀ r ∈ b.rows, r.id ≠ row.id := fun r hr heq => hfresh (heq ▸ ht.rows r hr)
  refine ⟨ht.nodup, ht.numbers, ht.held, ht.alone, fun r hr => ?_, fun r hr r' hr' hid => ?_,
    fun e he => hhas (ht.entries e he), fun p o i h => hhas (ht.subjects p o i h)⟩
  · rcases List.mem_append.mp hr with hr | hr
    · exact List.mem_cons_of_mem _ (ht.rows r hr)
    · exact List.mem_singleton.mp hr ▸ List.mem_cons_self
  · rcases List.mem_append.mp hr with hr | hr <;> rcases List.mem_append.mp hr' with hr' | hr'
    · exact ht.orgs r hr r' hr' hid
    · exact absurd (hid.trans (congrArg _ (List.mem_singleton.mp hr'))) (hne r hr)
    · exact absurd (hid.symm.trans (congrArg _ (List.mem_singleton.mp hr))) (hne r' hr')
    · rw [List.mem_singleton.mp hr, List.mem_singleton.mp hr']

/-- The next number is that of no other entry. -/
theorem Tidy.append_entry (ht : b.Tidy) {entry : QueueEntry}
    (hnumber : entry.bullJobId = toString (b.added + 1))
    (hhas : b.Has entry.data.orgId entry.data.jobRecordId) :
    Tidy { b with queue := b.queue ++ [entry], added := b.added + 1 } := by
  have hperm : ((b.queue ++ [entry]) ++ b.active).Perm (entry :: (b.queue ++ b.active)) := by
    rw [List.append_assoc]
    exact List.perm_middle
  have hcases : ∀ {P : QueueEntry → Prop}, P entry → (∀ e ∈ b.queue ++ b.active, P e) →
      ∀ e ∈ (b.queue ++ [entry]) ++ b.active, P e := by
    intro P hentry hall e he
    rcases List.mem_cons.mp (hperm.mem_iff.mp he) with rfl | he
    · exact hentry
    · exact hall e he
  have hnumbers : ∀ e ∈ b.queue ++ b.active, ∃ n ≤ b.added + 1, e.bullJobId = toString n := by
    intro e he
    obtain ⟨n, hn, heq⟩ := ht.numbers e he
    exact ⟨n, by omega, heq⟩
  refine ⟨?_, hcases ⟨_, le_rfl, hnumber⟩ hnumbers, ht.held, ht.alone, ht.rows, ht.orgs,
    hcases hhas ht.entries, ht.subjects⟩
  refine ((hperm.map QueueEntry.bullJobId).nodup_iff).mpr (List.nodup_cons.mpr ⟨fun hmem => ?_,
    ht.nodup⟩)
  obtain ⟨e, he, heq⟩ := List.mem_map.mp hmem
  obtain ⟨n, hn, hen⟩ := ht.numbers e he
  have hsame : n = b.added + 1 := toString_nat_injective (by rw [← hen, heq, hnumber])
  omega

/-- An entry that waits is nobody's. -/
theorem Tidy.unheld (ht : b.Tidy) {entry : QueueEntry} (he : entry ∈ b.queue) (q : Pid) :
    (b.phase q).held ≠ some entry := by
  intro hq
  have hnodup := ht.nodup
  rw [List.map_append, List.nodup_append] at hnodup
  exact hnodup.2.2 _ (List.mem_map_of_mem he) _ (List.mem_map_of_mem (ht.held q entry hq)) rfl

theorem Tidy.take (ht : b.Tidy) {entry : QueueEntry} (he : entry ∈ b.queue) :
    Tidy { b with queue := b.queue.erase entry, active := b.active ++ [entry] } := by
  have hperm : (b.queue.erase entry ++ (b.active ++ [entry])).Perm (b.queue ++ b.active) := by
    rw [← List.append_assoc]
    refine List.perm_append_comm.trans ?_
    exact ((List.perm_cons_erase he).append_right b.active).symm
  exact ⟨((hperm.map QueueEntry.bullJobId).nodup_iff).mpr ht.nodup,
    fun e hmem => ht.numbers e (hperm.mem_iff.mp hmem),
    fun q e hq => List.mem_append_left _ (ht.held q e hq), ht.alone, ht.rows, ht.orgs,
    fun e hmem => ht.entries e (hperm.mem_iff.mp hmem), ht.subjects⟩

/-- An entry that nobody works on may leave, or go back to the queue for another attempt. -/
theorem Tidy.leave (ht : b.Tidy) {entry : QueueEntry} (hfree : ∀ q, (b.phase q).held ≠ some entry)
    {back : List QueueEntry} (hback : back = [] ∨ entry ∈ b.active ∧ back = entry.retried.toList) :
    Tidy { b with active := b.active.erase entry, queue := b.queue ++ back } := by
  have hactive : ∀ e, e ∈ b.active.erase entry → e ∈ b.active :=
    fun e he => List.mem_of_mem_erase he
  have hdata : ∀ e ∈ back, entry ∈ b.active ∧ e.data = entry.data ∧
      e.bullJobId = entry.bullJobId := by
    rcases hback with rfl | ⟨hmem, rfl⟩
    · exact fun e he => nomatch he
    · intro e he
      have hretried := Option.mem_toList.mp he
      refine ⟨hmem, QueueEntry.data_retried hretried, ?_⟩
      unfold QueueEntry.retried at hretried
      split at hretried <;> cases hretried
      rfl
  have hfrom : ∀ e ∈ (b.queue ++ back) ++ b.active.erase entry, ∃ e' ∈ b.queue ++ b.active,
      e.data = e'.data ∧ e.bullJobId = e'.bullJobId := by
    intro e he
    rcases List.mem_append.mp he with he | he
    · rcases List.mem_append.mp he with he | he
      · exact ⟨e, List.mem_append_left _ he, rfl, rfl⟩
      · obtain ⟨hmem, hd, hb⟩ := hdata e he
        exact ⟨entry, List.mem_append_right _ hmem, hd, hb⟩
    · exact ⟨e, List.mem_append_right _ (hactive e he), rfl, rfl⟩
  refine ⟨?_, fun e he => ?_, fun q e hq => ?_, ht.alone, ht.rows, ht.orgs, fun e he => ?_,
    ht.subjects⟩
  · have hnodup := ht.nodup
    rcases hback with rfl | ⟨hmem, rfl⟩
    · rw [List.append_nil]
      exact hnodup.sublist (((List.erase_sublist).append_left b.queue).map _)
    · have hperm : (b.queue ++ b.active).Perm (entry :: (b.queue ++ b.active.erase entry)) :=
        ((List.perm_cons_erase hmem).append_left b.queue).trans List.perm_middle
      have hnodup' := ((hperm.map QueueEntry.bullJobId).nodup_iff).mp hnodup
      cases hr : entry.retried with
      | none =>
        rw [Option.toList_none, List.append_nil]
        exact (List.nodup_cons.mp hnodup').2
      | some e =>
        have hb := (hdata e (hr ▸ List.mem_singleton_self e)).2.2
        rw [Option.toList_some, List.append_assoc, List.singleton_append]
        refine ((List.perm_middle.map QueueEntry.bullJobId).nodup_iff).mpr ?_
        rw [List.map_cons, hb]
        exact hnodup'
  · obtain ⟨e', he', -, hb⟩ := hfrom e he
    exact hb ▸ ht.numbers e' he'
  · have hne : e ≠ entry := by
      rintro rfl
      exact hfree q hq
    exact (List.mem_erase_of_ne hne).mpr (ht.held q e hq)
  · obtain ⟨e', he', hd, -⟩ := hfrom e he
    exact hd ▸ ht.entries e' he'

theorem Tidy.free_over (ht : b.Tidy) {entry : QueueEntry} (hp : (b.phase p).held = some entry)
    {phase : Phase} (hphase : phase.held = none) :
    ∀ q, ((b.enter p phase).phase q).held ≠ some entry :=
  forall_enter (P := fun _ phase => phase.held ≠ some entry)
    (fun h => by cases hphase.symm.trans h) fun q hqp hq => hqp (ht.alone q p entry hq hp)

/-- Every move keeps rows, entries and workers in order. -/
theorem Tidy.move (ht : b.Tidy) {e : Exchange sig} {b' : Board} (hmove : b.Move p e b') :
    b'.Tidy := by
  cases hmove with
  | other cmd r drawn hd hread hadd hupdate => exact ht.draw hd
  | read orgId id r found hp hrow =>
    rcases Phase.reading_cases (b.phase p) found with ⟨-, hsame⟩ | hidle | ⟨row, -, -, hread⟩
    · rw [hsame]
      unfold Board.enter
      rw [Function.update_eq_self]
      exact ht
    · rw [hidle]
      exact ht.enter (fun _ h => by cases h) fun _ _ h => by cases h
    · rw [hread]
      exact ht.enter (fun _ h => by cases h) fun _ _ h => by cases h
  | create orgId apiKeyId payload priority row hp horg hstatus hfresh =>
    refine (ht.append_row hfresh).enter (fun _ h => by cases h) fun o i h => ?_
    cases h
    exact ⟨row, List.mem_append_right _ (List.mem_singleton_self row), horg, rfl⟩
  | createLost orgId apiKeyId payload priority row err hstatus hfresh => exact ht.append_row hfresh
  | add entry r hp horg hnumber =>
    refine ht.enter_over.append_entry hnumber (ht.subjects p _ _ ?_)
    rcases hp with hp | ⟨row, hp, hid⟩
    · rw [hp, horg]
      rfl
    · rw [hp, horg, ← hid]
      rfl
  | addLost data priority err hp => exact ht.enter_over
  | take entry hp hentry =>
    refine (ht.take hentry).enter (fun e he => ?_) fun o i h => ?_
    · cases he
      exact ⟨List.mem_append_right _ (List.mem_singleton_self entry), fun q _ => ht.unheld hentry q⟩
    · cases h
      exact ht.entries entry (List.mem_append_left _ hentry)
  | takeLost entry err hp hentry => exact ht.take hentry
  | work entry update now r hp hu => exact ht.written _ _ _ _ _
  | complete entry result now hp hrow =>
    exact (ht.written _ _ _ _ _).enter_held (congrArg Phase.held hp) rfl
  | completeLost entry result now err hp => exact ht.written _ _ _ _ _
  | announce entry event hp hid hstatus => exact ht.enter_held (congrArg Phase.held hp) rfl
  | announceLost entry event err hp hid hstatus => exact ht.enter_held (congrArg Phase.held hp) rfl
  | finish entry r hp =>
    have hleave := ht.enter_over.leave (ht.free_over (congrArg Phase.held hp) rfl) (.inl rfl)
    rwa [List.append_nil] at hleave
  | finishLost entry err hp => exact ht.enter_over
  | fail entry hp =>
    have hheld := Phase.held_of_working hp
    have hmem := ht.held p entry hheld
    refine Tidy.leave ?_ (ht.free_over hheld rfl) (.inr ⟨hmem, rfl⟩)
    refine ht.enter (fun _ h => by cases h) fun o i h => ?_
    cases h
    exact ht.entries entry (List.mem_append_right _ hmem)
  | failLost entry err hp =>
    have hheld := Phase.held_of_working hp
    exact ht.enter_over.leave (ht.free_over hheld rfl) (.inr ⟨ht.held p entry hheld, rfl⟩)
  | failSkipped entry err hp => exact ht.enter_over
  | markFailed entry message now r hp => exact (ht.written _ _ _ _ _).enter_over
  | markFailedLost entry message err hp => exact ht.enter_over
  | requeue row now hp hrow =>
    refine (ht.written _ _ _ _ _).enter (fun _ h => by cases h) fun o i h => ?_
    cases h
    exact has_written hrow
  | requeueLost row now err hp => exact (ht.written _ _ _ _ _).enter_over
  | requeueSkipped row r hp => exact ht.enter_over
  | note orgId id bullJobId now r hp => exact ht.written _ _ _ _ _

/-! ## Nothing is stranded -/

/-- An entry that is yet to be tried, or whose attempt has not ended. -/
def Attended (b : Board) (id : Uuid) : Prop :=
  (∃ entry ∈ b.queue, entry.data.jobRecordId = id) ∨
    ∃ entry ∈ b.active, entry.data.jobRecordId = id ∧ ∀ p, ¬(b.phase p).Closing entry

def Alive (b : Board) (id : Uuid) : Prop := b.Attended id ∨ ∃ p, (b.phase p).Owing id

/-- Somebody looks after every row that is neither completed nor dead. -/
def Kept (b : Board) : Prop := ∀ row ∈ b.rows, row.Unsettled → b.Alive row.id

variable {b' : Board} {id : Uuid}

/-- The row is looked after by other means if somebody enters a phase. -/
theorem Alive.enter (h : b.Alive id) {phase : Phase}
    (hclosing : ∀ entry, entry.data.jobRecordId = id → phase.Closing entry →
      (b.phase p).Closing entry)
    (howing : (b.phase p).Owing id → phase.Owing id) : (b.enter p phase).Alive id := by
  rcases h with (hqueue | ⟨entry, hmem, hid, hopen⟩) | ⟨q, hq⟩
  · exact .inl (.inl hqueue)
  · refine .inl (.inr ⟨entry, hmem, hid, ?_⟩)
    exact forall_enter (P := fun _ phase => ¬phase.Closing entry)
      (fun hc => hopen p (hclosing entry hid hc)) fun q _ => hopen q
  · refine .inr ⟨q, ?_⟩
    exact forall_enter (P := fun q phase => (b.phase q).Owing id → phase.Owing id) howing
      (fun _ _ h => h) q hq

/-- An entry that nobody closes attends to its row. -/
theorem Tidy.attended_of_taken (ht : b.Tidy) {entry : QueueEntry}
    (hp : b.phase p = .taken entry) : b.Attended entry.data.jobRecordId := by
  refine .inr ⟨entry, ht.held p entry (by rw [hp]; rfl), rfl, fun q hq => ?_⟩
  have hqp := ht.alone q p entry hq.held (by rw [hp]; rfl)
  rw [hqp, hp] at hq
  rcases hq with hq | hq <;> cases hq

theorem Kept.of_alive (hk : b.Kept) (hrows : b'.rows ⊆ b.rows)
    (halive : ∀ id, b.Alive id → b'.Alive id) : b'.Kept :=
  fun row hrow hun => halive _ (hk row (hrows hrow) hun)

theorem Kept.of_written (hk : b.Kept) {orgId : OrgId} {id : Uuid} {update : JobUpdate} {now : ℤ}
    (hrows : b'.rows = b.written orgId id update now)
    (halive : ∀ id', id' ≠ id → b.Alive id' → b'.Alive id')
    (hrow : ∀ row ∈ b'.rows, row.id = id → row.Unsettled → b'.Alive id) : b'.Kept := by
  intro row' hrow' hun
  by_cases hid : row'.id = id
  · exact hid ▸ hrow row' hrow' hid hun
  · obtain ⟨row, hmem, heq, -, hsame | ⟨-, hrid, -⟩⟩ := mem_written (hrows ▸ hrow')
    · exact halive _ hid (heq ▸ hk row hmem (hsame ▸ hun))
    · exact absurd (heq.trans hrid) hid

/-- An update reaches the row. -/
theorem Tidy.eq_apply (ht : b.Tidy) {orgId : OrgId} {id : Uuid} (hhas : b.Has orgId id)
    {update : JobUpdate} {now : ℤ} {row' : JobRow} (hrow' : row' ∈ b.written orgId id update now)
    (hid : row'.id = id) : ∃ row ∈ b.rows, row.id = id ∧ row' = update.apply now row := by
  obtain ⟨row, hrow, rfl⟩ := List.mem_map.mp hrow'
  split at hid
  · rename_i hmatch
    exact ⟨row, hrow, hmatch.2, if_pos hmatch⟩
  · rename_i hnot
    obtain ⟨r, hr, horg, hrid⟩ := hhas
    exact absurd ⟨(ht.orgs row hrow r hr (hid.trans hrid.symm)).trans horg, hid⟩ hnot

/-- What `Untorn` says of the board. -/
structure Whole (b : Board) (e : Exchange sig) (b' : Board) : Prop where
  create : ∀ orgId apiKeyId payload priority err,
    e = ⟨.createJobRow orgId apiKeyId payload priority, .error err⟩ → b'.rows = b.rows
  requeue : ∀ orgId id err, e = ⟨.updateJob orgId id .requeued, .error err⟩ → b'.rows = b.rows
  add : ∀ data priority err, e = ⟨.queueAdd data priority, .error err⟩ → b'.queue ≠ b.queue
  fail : ∀ entry err, e = ⟨.queueFail entry, .error err⟩ → entry.isLastAttempt = true →
    b'.active = b.active
  last : ∀ orgId id message final err,
    e = ⟨.updateJob orgId id (.failed message final), .error err⟩ → final = true →
      ∀ row ∈ b'.rows, row.id = id → row.status = .deadLetter
  late : ∀ orgId id message final r, e = ⟨.updateJob orgId id (.failed message final), r⟩ →
    final = false → ∀ row ∈ b.rows, row.id = id → row.Unsettled

/-- The entry that leaves, if it was the one that attended to the row, has come back. -/
theorem Alive.leave (h : b.Alive id) {entry : QueueEntry} {phase : Phase} {back : List QueueEntry}
    (hp : (b.phase p).held = some entry)
    (hclosing : ∀ e, ¬phase.Closing e)
    (hback : entry.data.jobRecordId = id → ¬(b.phase p).Closing entry →
      (∃ e ∈ back, e.data.jobRecordId = id) ∨ phase.Owing id) :
    Alive { b.enter p phase with
      active := b.active.erase entry, queue := b.queue ++ back } id := by
  rcases h with (⟨e, he, hid⟩ | ⟨e, hmem, hid, hopen⟩) | ⟨q, hq⟩
  · exact .inl (.inl ⟨e, List.mem_append_left _ he, hid⟩)
  · by_cases heq : e = entry
    · subst heq
      rcases hback hid (hopen p) with ⟨e', he', hid'⟩ | howing
      · exact .inl (.inl ⟨e', List.mem_append_right _ he', hid'⟩)
      · refine .inr ⟨p, ?_⟩
        simpa [Board.enter] using howing
    · refine .inl (.inr ⟨e, (List.mem_erase_of_ne heq).mpr hmem, hid, ?_⟩)
      exact forall_enter (P := fun _ phase => ¬phase.Closing e) (hclosing e) fun q _ => hopen q
  · have hqp : q ≠ p := by
      rintro rfl
      exact Phase.not_owing_of_held hp id hq
    refine .inr ⟨q, ?_⟩
    simpa [Board.enter, hqp] using hq

/-- A new attempt at a waiting entry. -/
theorem Alive.take (h : b.Alive id) (ht : b.Tidy) {entry : QueueEntry} (he : entry ∈ b.queue)
    {phase : Pid → Phase} (hclosing : ∀ q e, (phase q).Closing e → (b.phase q).Closing e)
    (howing : ∀ q, (b.phase q).Owing id → (phase q).Owing id) :
    Alive { b with
      queue := b.queue.erase entry, active := b.active ++ [entry], phase := phase } id := by
  rcases h with (⟨e, hmem, hid⟩ | ⟨e, hmem, hid, hopen⟩) | ⟨q, hq⟩
  · by_cases heq : e = entry
    · subst heq
      exact .inl (.inr ⟨e, List.mem_append_right _ (List.mem_singleton_self e), hid,
        fun q hc => ht.unheld he q (hclosing q e hc).held⟩)
    · exact .inl (.inl ⟨e, (List.mem_erase_of_ne heq).mpr hmem, hid⟩)
  · exact .inl (.inr ⟨e, List.mem_append_left _ hmem, hid, fun q hc => hopen q (hclosing q e hc)⟩)
  · exact .inr ⟨q, howing q hq⟩

/-- A process that owes nothing may go. -/
theorem Kept.over (hk : b.Kept) (hp : ∀ id, ¬(b.phase p).Owing id) : (b.enter p .over).Kept :=
  hk.of_alive (List.Subset.refl _) fun id h =>
    h.enter (fun e _ hc => absurd hc (Phase.not_closing_over e)) fun ho => absurd ho (hp id)

/-- Whatever is not torn leaves nothing stranded. -/
theorem Kept.move (hk : b.Kept) (ht : b.Tidy) {e : Exchange sig} (hmove : b.Move p e b')
    (hw : b.Whole e b') : b'.Kept := by
  have hleft : ∀ {id}, b.Alive id → ¬(b.phase p).Owing id → (b.enter p .over).Alive id :=
    fun h hp => h.enter (fun e _ hc => absurd hc (Phase.not_closing_over e)) fun ho => absurd ho hp
  cases hmove with
  | other cmd r drawn hd hread hadd hupdate => exact hk
  | read orgId id r found hp hrow =>
    refine hk.of_alive (List.Subset.refl _) fun id h => h.enter (fun e _ hc => ?_) fun ho => ?_
    · rcases Phase.reading_cases (b.phase p) found with ⟨-, hsame⟩ | hidle | ⟨row, -, -, hread⟩
      · exact hsame ▸ hc
      · rw [hidle] at hc
        rcases hc with hc | hc <;> cases hc
      · rw [hread] at hc
        rcases hc with hc | hc <;> cases hc
    · exact ho.reading found
  | create orgId apiKeyId payload priority row hp horg hstatus hfresh =>
    intro row' hrow' hun
    rcases List.mem_append.mp hrow' with hrow' | hrow'
    · refine (hk row' hrow' hun).enter (fun e _ hc => ?_) fun ho =>
        absurd ho (Phase.not_owing_of_unbegun hp _)
      rcases hc with hc | hc <;> cases hc
    · -- the request that has created the row owes it an entry
      rw [List.mem_singleton.mp hrow']
      exact .inr ⟨p, by simp [Board.enter, Phase.Owing]⟩
  | createLost orgId apiKeyId payload priority row err hstatus hfresh =>
    have hsame : b.rows ++ [row] = b.rows := hw.create _ _ _ _ _ rfl
    simp at hsame
  | add entry r hp horg hfresh =>
    intro row hrow hun
    by_cases hid : row.id = entry.data.jobRecordId
    · -- the entry is what was owed
      exact .inl (.inl ⟨entry, List.mem_append_right _ (List.mem_singleton_self entry), hid.symm⟩)
    · have hnot : ¬(b.phase p).Owing row.id := by
        rcases hp with hp | ⟨r, hp, hrid⟩
        · rw [hp]
          exact fun ho => hid ho.symm
        · rw [hp]
          exact fun ho => hid (ho.symm.trans hrid)
      rcases hleft (hk row hrow hun) hnot with (⟨e, he, heid⟩ | hactive) | howing
      · exact .inl (.inl ⟨e, List.mem_append_left _ he, heid⟩)
      · exact .inl (.inr hactive)
      · exact .inr howing
  | addLost data priority err hp => exact absurd rfl (hw.add _ _ _ rfl)
  | take entry hp hentry =>
    refine hk.of_alive (List.Subset.refl _) fun id h => h.take ht hentry ?_ ?_
    · refine forall_enter (P := fun q phase => ∀ e, phase.Closing e → (b.phase q).Closing e)
        (fun e hc => ?_) fun _ _ _ hc => hc
      rcases hc with hc | hc <;> cases hc
    · refine forall_enter (P := fun q phase => (b.phase q).Owing id → phase.Owing id)
        (fun ho => absurd ho (Phase.not_owing_of_unbegun (.inl hp) id)) fun _ _ ho => ho
  | takeLost entry err hp hentry =>
    exact hk.of_alive (List.Subset.refl _) fun id h =>
      h.take ht hentry (fun _ _ hc => hc) fun _ ho => ho
  | work entry update now r hp hu =>
    exact hk.of_written rfl (fun _ _ h => h) fun _ _ _ _ => .inl (ht.attended_of_taken hp)
  | complete entry result now hp hrow =>
    refine hk.of_written rfl (fun id hne h => ?_) fun row hmem hid hun => ?_
    · refine h.enter (fun e hid hc => ?_) fun ho =>
        absurd ho (Phase.not_owing_of_held (congrArg Phase.held hp) id)
      rcases hc with hc | hc <;> cases hc
      exact absurd hid.symm hne
    · obtain ⟨row₀, -, -, rfl⟩ := ht.eq_apply hrow hmem hid
      exact absurd rfl hun.1
  | completeLost entry result now err hp =>
    exact hk.of_written rfl (fun _ _ h => h) fun _ _ _ _ => .inl (ht.attended_of_taken hp)
  | announce entry event hp hid hstatus =>
    refine hk.of_alive (List.Subset.refl _) fun id h => h.enter (fun e _ hc => ?_) fun ho =>
      absurd ho (Phase.not_owing_of_held (congrArg Phase.held hp) id)
    rcases hc with hc | hc <;> cases hc
    exact .inl hp
  | announceLost entry event err hp hid hstatus =>
    refine hk.of_alive (List.Subset.refl _) fun id h => h.enter (fun e _ hc => ?_) fun ho =>
      absurd ho (Phase.not_owing_of_held (congrArg Phase.held hp) id)
    rcases hc with hc | hc <;> cases hc
  | finish entry r hp =>
    refine hk.of_alive (List.Subset.refl _) fun id h => ?_
    have hleave : Alive { b.enter p .over with
        active := b.active.erase entry, queue := b.queue ++ [] } id :=
      h.leave (congrArg Phase.held hp) Phase.not_closing_over
        fun _ hopen => absurd (.inr hp) hopen
    rwa [List.append_nil] at hleave
  | finishLost entry err hp =>
    exact hk.over (Phase.not_owing_of_held (congrArg Phase.held hp))
  | fail entry hp =>
    refine hk.of_alive (List.Subset.refl _) fun id h => h.leave (Phase.held_of_working hp)
      (fun e hc => by rcases hc with hc | hc <;> cases hc) fun hid _ => ?_
    -- after the last attempt the row is owed its status, before it the entry waits again
    cases hr : entry.retried with
    | none => exact .inr ⟨isLastAttempt_iff.mpr hr, hid⟩
    | some e => exact .inl ⟨e, List.mem_singleton_self e, by rw [QueueEntry.data_retried hr, hid]⟩
  | failLost entry err hp =>
    have hmem := ht.held p entry (Phase.held_of_working hp)
    refine hk.of_alive (List.Subset.refl _) fun id h => h.leave (Phase.held_of_working hp)
      Phase.not_closing_over fun hid _ => .inl ?_
    cases hr : entry.retried with
    | none =>
      -- nobody would mark the row: the entry has to stay active
      have hsame : b.active.erase entry = b.active := hw.fail _ _ rfl (isLastAttempt_iff.mpr hr)
      have hlength := congrArg List.length hsame
      have hpos := List.length_pos_of_mem hmem
      rw [List.length_erase_of_mem hmem] at hlength
      omega
    | some e => exact ⟨e, List.mem_singleton_self e, by rw [QueueEntry.data_retried hr, hid]⟩
  | failSkipped entry err hp =>
    exact hk.over (Phase.not_owing_of_held (Phase.held_of_working hp))
  | markFailed entry message now r hp =>
    have howing : ∀ {id}, (b.phase p).Owing id →
        entry.isLastAttempt = true ∧ entry.data.jobRecordId = id := by
      intro id ho
      rw [hp] at ho
      exact ho
    refine hk.of_written rfl (fun id hne h => hleft h fun ho => hne (howing ho).2.symm)
      fun row hmem hid hun => ?_
    obtain ⟨row₀, hrow₀, hrid, rfl⟩ := ht.eq_apply (ht.subjects p _ _ (by rw [hp]; rfl)) hmem hid
    cases hlast : entry.isLastAttempt with
    | true =>
      rw [hlast] at hun
      exact absurd rfl hun.2
    | false =>
      -- a failure that is not final leaves an unsettled row, which was alive before
      have halive := hk row₀ hrow₀ (hw.late _ _ _ _ _ rfl hlast row₀ hrow₀ hrid)
      rw [hrid] at halive
      refine hleft halive fun ho => ?_
      rw [(howing ho).1] at hlast
      cases hlast
  | markFailedLost entry message err hp =>
    intro row hrow hun
    refine hleft (hk row hrow hun) fun ho => ?_
    rw [hp] at ho
    exact hun.2 (hw.last _ _ _ _ _ rfl ho.1 row hrow ho.2.symm)
  | requeue row now hp hrow =>
    refine hk.of_written rfl (fun id _ h => h.enter (fun e _ hc => ?_) fun ho =>
      absurd ho (Phase.not_owing_of_unbegun (.inr ⟨row, hp⟩) id)) fun _ _ _ _ => .inr ⟨p, ?_⟩
    · rcases hc with hc | hc <;> cases hc
    · simp [Board.enter, Phase.Owing]
  | requeueLost row now err hp =>
    have hsame : b.written p.orgId row.id .requeued now = b.rows := hw.requeue _ _ _ rfl
    refine hk.of_alive ?_ fun id h => hleft h (Phase.not_owing_of_unbegun (.inr ⟨row, hp⟩) id)
    exact fun r hr => hsame ▸ hr
  | requeueSkipped row r hp => exact hk.over (Phase.not_owing_of_unbegun (.inr ⟨row, hp⟩))
  | note orgId id bullJobId now r hp =>
    intro row' hrow' hun
    obtain ⟨row, hmem, heq, -, rfl | ⟨-, -, rfl⟩⟩ := mem_written hrow'
    · exact hk _ hmem hun
    · exact heq ▸ hk row hmem hun

end Board

/-! ## Every run -/

section Runs

variable {deps : Deps} {c d : GatewayConfig} {a : Action sig Pid Drift Op}

theorem whole_of_untorn {e : GatewayEvent} (h : Untorn c (.command e) d) :
    (boardOf c).Whole ⟨e.cmd, e.ans⟩ (boardOf d) := by
  obtain ⟨p, cmd, r⟩ := e
  refine ⟨fun orgId apiKeyId payload priority err heq => ?_, fun orgId id err heq => ?_,
    fun data priority err heq => ?_, fun entry err heq => ?_,
    fun orgId id message final err heq hfinal => ?_,
    fun orgId id message final r' heq hfinal => ?_⟩
  · cases heq
    exact h
  · cases heq
    exact h
  · cases heq
    exact h
  · cases heq
    exact h
  · cases heq
    subst hfinal
    exact h
  · cases heq
    subst hfinal
    exact h

theorem tidy_init (organizations : OrgId → Option OrgRow) (billingPlans : String → Option ℚ) :
    (boardOf (.init (.fresh organizations billingPlans))).Tidy := by
  refine ⟨List.nodup_nil, fun _ h => ?_, fun _ _ h => ?_, fun _ _ _ h => ?_, fun _ h => ?_,
    fun _ h => ?_, fun _ h => ?_, fun _ _ _ h => ?_⟩
  all_goals cases h

/-- Rows, entries and workers are in order in every run. -/
theorem tidy_step (hconf : System.Conforms JobRule JobEnded c) (ht : (boardOf c).Tidy)
    (hstep : (gateway deps).Steps c a d) : (boardOf d).Tidy := by
  rcases move_of_steps hconf hstep with ⟨hsame, -⟩ | ⟨e, rfl, hmove⟩
  · exact hsame ▸ ht
  · exact ht.move hmove

theorem board_kept_step (hconf : System.Conforms JobRule JobEnded c) (ht : (boardOf c).Tidy)
    (hk : (boardOf c).Kept) (hal : Untorn c a d) (hstep : (gateway deps).Steps c a d) :
    (boardOf d).Kept := by
  rcases move_of_steps hconf hstep with ⟨hsame, -⟩ | ⟨e, rfl, hmove⟩
  · exact hsame ▸ hk
  · exact hk.move ht hmove (whole_of_untorn hal)

/-- A process that owes something has done something. -/
theorem midWay_of_owing {p : Pid} {id : Uuid} (h : (phaseOf c p).Owing id) : MidWay c id := by
  by_contra hnone
  have hnil : transcript p c.world.history = [] :=
    transcript_eq_nil.mpr fun e he hep => hnone ⟨e, he, hep ▸ h⟩
  rw [phaseOf, hnil] at h
  exact h

end Runs

/-! ### A job that is created -/

/-- The row is written, and the queue cannot be reached. -/
def unqueued : List GatewayLabel :=
  (.start ⟨tenantA, 0⟩ (.createJob bulkGreeting) : GatewayLabel) ::
    steps ⟨tenantA, 0⟩ [.nothing, .nothing, .nothing, .id jobA] ++
  ([.step ⟨tenantA, 0⟩ ⟨.nothing, some (.error "Connection is closed.", false)⟩] :
    List GatewayLabel)

end CloudMesh.Gateway
