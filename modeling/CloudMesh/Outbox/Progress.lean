import CloudMesh.Concurrent.Sequential
import CloudMesh.Outbox.Table
import Mathlib.Data.List.Sort

/-!
# One poll after the other

A publisher that always fails on some rows leaves them pending, and every scan returns the oldest
pending rows. Rows that cannot be published therefore keep their places in the batch: as long as
they do not fill it, every poll publishes the first row behind them, and when they do, nothing
behind them is read any more.

## Main definitions

- `iterate` — one poll after the other
- `Answered` — no command on the table fails
- `Steady` — a publisher that always fails on some rows and never on others
- `AllPublished` — every row that can be published has been published
- `allPublished_iff` — when it is so after as many polls as there are rows
-/

namespace CloudMesh.Outbox

open Concurrent

/-! ## Polls that are not disturbed -/

section Definitions

variable (net : (c : sig.Cmd) → sig.Ans c → Prop) (publisher : EventPublisher) (batchSize : ℕ)
  (fails : OutboxEvent → Bool)

def iterate : ℕ → Prog Unit
  | 0 => pure ()
  | n + 1 => do
    let _ ← pollOutbox publisher batchSize
    iterate n

/-- The table and the clock answer as they should; the publisher's commands are answered by
`net`. -/
def Answered (s : Table) (c : sig.Cmd) (r : sig.Ans c) (s' : Table) : Prop :=
  match c with
  | .findMany take => ∃ choice, s.perform (.findMany take) choice = some (r, s')
  | .update id publishedAt => ∃ choice, s.perform (.update id publishedAt) choice = some (r, s')
  | .dateNow => ∃ choice, s.perform .dateNow choice = some (r, s')
  | c => net c r ∧ s' = s

/-- The publish of the row, and what it may come to. -/
abbrev PublishRuns (row : OutboxEvent) : Table → Except String Unit → Table → Prop :=
  (publisher.publish row.eventType row.payload row.id).Runs (Answered net)

/-- The publisher always comes to an end, in a failure on the rows that `fails` says and only on
these. -/
structure Steady : Prop where
  ends : ∀ row s, ∃ r s', PublishRuns net publisher row s r s'
  rejects : ∀ row s r s', fails row = true → PublishRuns net publisher row s r s' →
    ∃ err, r = .error err
  resolves : ∀ row s r s', fails row = false → PublishRuns net publisher row s r s' → r = .ok ()

/-- The pending rows of `s` that can be published are marked in `s'`. -/
def AllPublished (s s' : Table) : Prop :=
  ∀ row ∈ s.pending, fails row = false →
    ∃ publishedAt, { row with publishedAt := some publishedAt } ∈ s'.rows

/-- The rows that cannot be published and may come before the row. -/
def Table.blocking (s : Table) (row : OutboxEvent) : List OutboxEvent :=
  s.pending.filter fun other => fails other && decide (other.createdAt ≤ row.createdAt)

end Definitions

/-! ## What one poll does -/

section Poll

variable {net : (c : sig.Cmd) → sig.Ans c → Prop} {publisher : EventPublisher} {batchSize : ℕ}
  {fails : OutboxEvent → Bool} {s s' : Table} {row event : OutboxEvent}
  {pending batch : List OutboxEvent}

theorem pending_mark (id : String) (publishedAt : ℤ) :
    (s.mark id publishedAt).pending = s.pending.filter fun row => row.id ≠ id := by
  show (s.rows.map (OutboxEvent.marked id publishedAt)).filter (fun row => row.publishedAt = none) =
    (s.rows.filter fun row => row.publishedAt = none).filter fun row => row.id ≠ id
  induction s.rows with
  | nil => rfl
  | cons row rows ih =>
    simp only [List.map_cons, List.filter_cons, ih]
    by_cases hid : row.id = id
    · simp [OutboxEvent.marked, hid]
      by_cases hnone : row.publishedAt = none <;> simp [hnone, hid]
    · by_cases hnone : row.publishedAt = none <;> simp [OutboxEvent.marked_of_ne hid, hnone, hid]

/-- A publisher leaves the table as it is. -/
theorem table_of_publish {r : Except String Unit} (h : PublishRuns net publisher row s r s') :
    s' = s := by
  refine Program.Runs.invariant (I := fun s' => s' = s)
    (publisher.foreign row.eventType row.payload row.id) ?_ h rfl
  rintro s₁ c r₁ s₂ hc hr rfl
  cases c with
  | findMany | update => cases hc
  | jsPublish | log | onError => exact hr.2
  | dateNow =>
    obtain ⟨choice, hperform⟩ := hr
    cases choice <;> cases hperform
    rfl

/-- What a publisher fails on is not told by whether the row has been marked. -/
theorem Steady.blind (hsteady : Steady net publisher fails) (row : OutboxEvent) :
    fails row = fails row.written := by
  obtain ⟨r, s', h⟩ := hsteady.ends row Table.empty
  have hwritten : PublishRuns net publisher row.written Table.empty r s' := h
  cases hrow : fails row <;> cases hold : fails row.written
  · rfl
  · obtain ⟨err, rfl⟩ := hsteady.rejects _ _ _ _ hold hwritten
    cases hsteady.resolves _ _ _ _ hrow h
  · obtain ⟨err, rfl⟩ := hsteady.rejects _ _ _ _ hrow h
    cases hsteady.resolves _ _ _ _ hold hwritten
  · rfl

/-- The row is left for the next poll. -/
def Kept (fails : OutboxEvent → Bool) (batch : List OutboxEvent) (row : OutboxEvent) : Bool :=
  batch.all fun event => fails event || decide (row.id ≠ event.id)

/-- From `s` the rows of the batch that can be published have been marked. -/
structure Marks (fails : OutboxEvent → Bool) (batch : List OutboxEvent) (s s' : Table) : Prop where
  pending : s'.pending = s.pending.filter (Kept fails batch)
  contents : s'.contents = s.contents

theorem runs_dateNow {r : Except String ℤ} : (command .dateNow).Runs (Answered net) s r s' ↔
    ∃ time, r = .ok time ∧ s' = s := by
  refine Program.runs_call.trans ?_
  constructor
  · rintro ⟨choice, h⟩
    cases choice with
    | nothing | arranged => cases h
    | now time =>
      cases h
      exact ⟨time, rfl, rfl⟩
  · rintro ⟨time, rfl, rfl⟩
    exact ⟨.now time, rfl⟩

theorem runs_update {id : String} {publishedAt : ℤ} {r : Except String Unit} :
    (command (.update id publishedAt)).Runs (Answered net) s r s' ↔
      if id ∈ s.rows.map OutboxEvent.id then r = .ok () ∧ s' = s.mark id publishedAt
      else r = .error "No record was found for an update." ∧ s' = s := by
  refine Program.runs_call.trans ?_
  have hperform : Answered net s (.update id publishedAt) r s' ↔
      s.perform (.update id publishedAt) .nothing = some (r, s') := by
    constructor
    · rintro ⟨choice, h⟩
      cases choice with
      | nothing => exact h
      | now | arranged => cases h
    · exact fun h => ⟨.nothing, h⟩
  rw [hperform]
  simp only [Table.perform]
  split <;> simp [eq_comm]

theorem runs_findMany {take : ℕ} {r : Except String (List OutboxEvent)} :
    (command (.findMany take)).Runs (Answered net) s r s' ↔
      ∃ arranged, s.Arranges arranged ∧ r = .ok (arranged.take take) ∧ s' = s := by
  refine Program.runs_call.trans ?_
  constructor
  · rintro ⟨choice, h⟩
    cases choice with
    | nothing | now => cases h
    | arranged arranged =>
      simp only [Table.perform] at h
      split at h
      · rename_i hsorted
        cases h
        exact ⟨arranged, hsorted, rfl, rfl⟩
      · cases h
  · rintro ⟨arranged, hsorted, rfl, rfl⟩
    exact ⟨.arranged arranged, by simp only [Table.perform, if_pos hsorted]⟩

theorem kept_singleton_of_fails (h : fails event = true) : Kept fails [event] row = true := by
  simp [Kept, h]

theorem Marks.refl_of_kept (h : ∀ row ∈ s.pending, Kept fails batch row = true) :
    Marks fails batch s s :=
  ⟨(List.filter_eq_self.mpr h).symm, rfl⟩

theorem Marks.append {s'' : Table} {rest : List OutboxEvent} (h : Marks fails batch s s')
    (h' : Marks fails rest s' s'') : Marks fails (batch ++ rest) s s'' := by
  refine ⟨?_, h'.contents.trans h.contents⟩
  rw [h'.pending, h.pending, List.filter_filter]
  refine List.filter_congr fun row _ => ?_
  rw [Kept, Kept, Kept, List.all_append, Bool.and_comm]

/-- What follows the publish: the row is marked, or has been deleted. -/
theorem runs_markPublished {id : String} {r : Except String Bool} :
    (command .dateNow >>= fun now => command (.update id now) >>= fun _ =>
        (pure true : Prog Bool)).Runs (Answered net) s r s' ↔
      if id ∈ s.rows.map OutboxEvent.id then r = .ok true ∧ ∃ time, s' = s.mark id time
      else r = .error "No record was found for an update." ∧ s' = s := by
  constructor
  · intro h
    rcases Handler.runs_bind.mp h with ⟨now, s₁, hnow, hmark⟩ | ⟨err, hnow, -⟩
    · obtain ⟨time, heq, rfl⟩ := runs_dateNow.mp hnow
      cases heq
      rcases Handler.runs_bind.mp hmark with ⟨_, s₂, hupdate, hpure⟩ | ⟨err, hupdate, rfl⟩
      · obtain ⟨rfl, rfl⟩ := Handler.runs_pure.mp hpure
        have hupdated := runs_update.mp hupdate
        split_ifs at hupdated ⊢ with hid
        · exact ⟨rfl, now, hupdated.2⟩
        · cases hupdated.1
      · have hupdated := runs_update.mp hupdate
        split_ifs at hupdated ⊢ with hid
        · cases hupdated.1
        · obtain ⟨heq, rfl⟩ := hupdated
          cases heq
          exact ⟨rfl, rfl⟩
    · obtain ⟨time, heq, -⟩ := runs_dateNow.mp hnow
      cases heq
  · have hnow : ∀ time, (command .dateNow).Runs (Answered net) s (.ok time) s :=
      fun time => runs_dateNow.mpr ⟨time, rfl, rfl⟩
    intro h
    split_ifs at h with hid
    · obtain ⟨rfl, time, rfl⟩ := h
      refine Handler.runs_bind.mpr (.inl ⟨time, s, hnow time, Handler.runs_bind.mpr (.inl ?_)⟩)
      refine ⟨(), s.mark id time, runs_update.mpr ?_, Handler.runs_pure.mpr ⟨rfl, rfl⟩⟩
      rw [if_pos hid]
      exact ⟨rfl, rfl⟩
    · obtain ⟨rfl, rfl⟩ := h
      refine Handler.runs_bind.mpr (.inl ⟨0, s', hnow 0, Handler.runs_bind.mpr (.inr ?_)⟩)
      refine ⟨_, runs_update.mpr ?_, rfl⟩
      rw [if_neg hid]
      exact ⟨rfl, rfl⟩

/-- A round never throws: the publish is refused, or the row is marked, or it has been deleted. -/
theorem runs_publishEvent {r : Except String Bool} :
    (publishEvent publisher event).Runs (Answered net) s r s' ↔
      (∃ err, PublishRuns net publisher event s (.error err) s' ∧ r = .ok false) ∨
        ∃ s₁, PublishRuns net publisher event s (.ok ()) s₁ ∧
          if event.id ∈ s₁.rows.map OutboxEvent.id then
            r = .ok true ∧ ∃ time, s' = s₁.mark event.id time
          else r = .ok false ∧ s' = s₁ := by
  constructor
  · intro h
    rcases Handler.runs_tryCatch.mp h with ⟨done, hbody, rfl⟩ | ⟨err, s₂, hbody, hcatch⟩
    · rcases Handler.runs_bind.mp hbody with ⟨_, s₁, hpublish, hrest⟩ | ⟨err, -, herr⟩
      · refine .inr ⟨s₁, hpublish, ?_⟩
        have hmarked := runs_markPublished.mp hrest
        split_ifs at hmarked ⊢ with hid
        · exact hmarked
        · cases hmarked.1
      · cases herr
    · obtain ⟨rfl, rfl⟩ := Handler.runs_pure.mp hcatch
      rcases Handler.runs_bind.mp hbody with ⟨_, s₁, hpublish, hrest⟩ | ⟨err', hpublish, -⟩
      · refine .inr ⟨s₁, hpublish, ?_⟩
        have hmarked := runs_markPublished.mp hrest
        split_ifs at hmarked ⊢ with hid
        · cases hmarked.1
        · exact ⟨rfl, hmarked.2⟩
      · exact .inl ⟨err', hpublish, rfl⟩
  · rintro (⟨err, hpublish, rfl⟩ | ⟨s₁, hpublish, hmarked⟩)
    · exact Handler.runs_tryCatch.mpr (.inr ⟨err, s', Handler.runs_bind.mpr
        (.inr ⟨err, hpublish, rfl⟩), Handler.runs_pure.mpr ⟨rfl, rfl⟩⟩)
    · split_ifs at hmarked with hid
      · obtain ⟨rfl, time, rfl⟩ := hmarked
        refine Handler.runs_tryCatch.mpr (.inl ⟨true, ?_, rfl⟩)
        refine Handler.runs_bind.mpr (.inl ⟨(), s₁, hpublish, runs_markPublished.mpr ?_⟩)
        rw [if_pos hid]
        exact ⟨rfl, time, rfl⟩
      · obtain ⟨rfl, rfl⟩ := hmarked
        refine Handler.runs_tryCatch.mpr (.inr ⟨"No record was found for an update.", s', ?_,
          Handler.runs_pure.mpr ⟨rfl, rfl⟩⟩)
        refine Handler.runs_bind.mpr (.inl ⟨(), s', hpublish, runs_markPublished.mpr ?_⟩)
        rw [if_neg hid]
        exact ⟨rfl, rfl⟩

/-- A round marks the row if it can be published, and never throws. -/
theorem marks_of_publishEvent (hsteady : Steady net publisher fails) {r : Except String Bool}
    (h : (publishEvent publisher event).Runs (Answered net) s r s') :
    (∃ done, r = .ok done) ∧ Marks fails [event] s s' := by
  rcases runs_publishEvent.mp h with ⟨err, hpublish, rfl⟩ | ⟨s₁, hpublish, hmarked⟩
  · refine ⟨⟨false, rfl⟩, ?_⟩
    obtain rfl := table_of_publish hpublish
    cases hfails : fails event with
    | true => exact .refl_of_kept fun row _ => kept_singleton_of_fails hfails
    | false => cases hsteady.resolves event _ _ _ hfails hpublish
  · have hfails : fails event = false := by
      cases hfails : fails event with
      | false => rfl
      | true =>
        obtain ⟨err, herr⟩ := hsteady.rejects event s _ s₁ hfails hpublish
        cases herr
    obtain rfl := table_of_publish hpublish
    split_ifs at hmarked with hid
    · obtain ⟨rfl, time, rfl⟩ := hmarked
      refine ⟨⟨true, rfl⟩, ?_, Table.contents_mark _ _⟩
      rw [pending_mark]
      refine List.filter_congr fun row _ => ?_
      simp [Kept, hfails]
    · -- a row that is gone is not pending either
      obtain ⟨rfl, rfl⟩ := hmarked
      refine ⟨⟨false, rfl⟩, .refl_of_kept fun row hrow => ?_⟩
      have hne : row.id ≠ event.id := fun heq =>
        hid (heq ▸ List.mem_map_of_mem (Table.mem_pending.mp hrow).1)
      simp [Kept, hne]

theorem publishEvent_ends (hsteady : Steady net publisher fails) (s : Table)
    (event : OutboxEvent) :
    ∃ r s', (publishEvent publisher event).Runs (Answered net) s r s' := by
  obtain ⟨r, s₁, hpublish⟩ := hsteady.ends event s
  cases r with
  | error err => exact ⟨.ok false, s₁, runs_publishEvent.mpr (.inl ⟨err, hpublish, rfl⟩)⟩
  | ok =>
    by_cases hid : event.id ∈ s₁.rows.map OutboxEvent.id
    · refine ⟨.ok true, s₁.mark event.id 0, runs_publishEvent.mpr (.inr ⟨s₁, hpublish, ?_⟩)⟩
      rw [if_pos hid]
      exact ⟨rfl, 0, rfl⟩
    · refine ⟨.ok false, s₁, runs_publishEvent.mpr (.inr ⟨s₁, hpublish, ?_⟩)⟩
      rw [if_neg hid]
      exact ⟨rfl, rfl⟩

theorem marks_of_publishAll (hsteady : Steady net publisher fails) {r : Except String ℕ}
    (h : (publishAll publisher batch).Runs (Answered net) s r s') :
    (∃ n, r = .ok n) ∧ Marks fails batch s s' := by
  induction batch generalizing s r with
  | nil =>
    obtain ⟨rfl, rfl⟩ := Handler.runs_pure.mp h
    exact ⟨⟨0, rfl⟩, .refl_of_kept fun _ _ => rfl⟩
  | cons event batch ih =>
    rcases Handler.runs_bind.mp h with ⟨done, s₁, hevent, hrest⟩ | ⟨err, hevent, -⟩
    · have hfirst := (marks_of_publishEvent hsteady hevent).2
      rcases Handler.runs_bind.mp hrest with ⟨n, s₂, hall, hpure⟩ | ⟨err, hall, -⟩
      · obtain ⟨rfl, rfl⟩ := Handler.runs_pure.mp hpure
        exact ⟨⟨_, rfl⟩, hfirst.append (ih hall).2⟩
      · obtain ⟨n, hn⟩ := (ih hall).1
        cases hn
    · obtain ⟨done, hdone⟩ := (marks_of_publishEvent hsteady hevent).1
      cases hdone

theorem publishAll_ends (hsteady : Steady net publisher fails) (s : Table)
    (batch : List OutboxEvent) :
    ∃ n s', (publishAll publisher batch).Runs (Answered net) s (.ok n) s' := by
  induction batch generalizing s with
  | nil => exact ⟨0, s, Handler.runs_pure.mpr ⟨rfl, rfl⟩⟩
  | cons event batch ih =>
    obtain ⟨r, s₁, hevent⟩ := publishEvent_ends hsteady s event
    obtain ⟨done, rfl⟩ := (marks_of_publishEvent hsteady hevent).1
    obtain ⟨n, s₂, hall⟩ := ih s₁
    exact ⟨_, s₂, Handler.runs_bind.mpr (.inl ⟨done, s₁, hevent, Handler.runs_bind.mpr
      (.inl ⟨n, s₂, hall, Handler.runs_pure.mpr ⟨rfl, rfl⟩⟩)⟩)⟩

/-- A poll marks what can be published of some scan. -/
theorem marks_of_pollOutbox (hsteady : Steady net publisher fails) {r : Except String PollResult}
    (h : (pollOutbox publisher batchSize).Runs (Answered net) s r s') :
    (∃ result, r = .ok result) ∧
      ∃ arranged, s.Arranges arranged ∧ Marks fails (arranged.take batchSize) s s' := by
  rcases Handler.runs_bind.mp h with ⟨pending, s₁, hscan, hrest⟩ | ⟨err, hscan, -⟩
  · obtain ⟨arranged, hsorted, heq, rfl⟩ := runs_findMany.mp hscan
    cases heq
    rcases Handler.runs_bind.mp hrest with ⟨n, s₂, hall, hpure⟩ | ⟨err, hall, -⟩
    · obtain ⟨rfl, rfl⟩ := Handler.runs_pure.mp hpure
      exact ⟨⟨_, rfl⟩, arranged, hsorted, (marks_of_publishAll hsteady hall).2⟩
    · obtain ⟨n, hn⟩ := (marks_of_publishAll hsteady hall).1
      cases hn
  · obtain ⟨arranged, -, heq, -⟩ := runs_findMany.mp hscan
    cases heq

/-- A poll can scan the rows in every order that is allowed. -/
theorem pollOutbox_ends (hsteady : Steady net publisher fails) (batchSize : ℕ)
    {arranged : List OutboxEvent} (hsorted : s.Arranges arranged) :
    ∃ result s', Marks fails (arranged.take batchSize) s s' ∧
      (pollOutbox publisher batchSize).Runs (Answered net) s (.ok result) s' := by
  obtain ⟨n, s', hall⟩ := publishAll_ends hsteady s (arranged.take batchSize)
  exact ⟨_, s', (marks_of_publishAll hsteady hall).2, Handler.runs_bind.mpr
    (.inl ⟨_, s, runs_findMany.mpr ⟨arranged, hsorted, rfl, rfl⟩, Handler.runs_bind.mpr
      (.inl ⟨n, s', hall, Handler.runs_pure.mpr ⟨rfl, rfl⟩⟩)⟩)⟩

end Poll

/-! ## Polls one after the other -/

section Iterate

variable {net : (c : sig.Cmd) → sig.Ans c → Prop} {publisher : EventPublisher} {batchSize : ℕ}
  {fails : OutboxEvent → Bool} {s s' : Table} {row : OutboxEvent}
  {arranged batch : List OutboxEvent}

/-- The pending rows that can be published. -/
def Table.publishable (fails : OutboxEvent → Bool) (s : Table) : List OutboxEvent :=
  s.pending.filter fun row => !fails row

/-- No row that can be published has a batch of other rows before it. -/
def Unblocked (fails : OutboxEvent → Bool) (batchSize : ℕ) (s : Table) : Prop :=
  ∀ row ∈ s.pending, fails row = false → (s.blocking fails row).length < batchSize

theorem not_kept_of_mem (hmem : row ∈ batch) (hfails : fails row = false) :
    Kept fails batch row = false := by
  rw [← Bool.not_eq_true, Kept, List.all_eq_true]
  intro h
  simpa [hfails] using h row hmem

/-- Rows that cannot be published stay pending. -/
theorem Marks.blocking (h : Marks fails batch s s') (hsub : ∀ event ∈ batch, event ∈ s.pending)
    (row : OutboxEvent) : s'.blocking fails row = s.blocking fails row := by
  unfold Table.blocking
  rw [h.pending, List.filter_filter]
  refine List.filter_congr fun other hother => ?_
  have hkept : fails other = true → Kept fails batch other = true := by
    intro hfails
    refine List.all_eq_true.mpr fun event hevent => ?_
    by_cases hid : other.id = event.id
    · obtain rfl := Table.eq_of_id (Table.mem_pending.mp hother).1
        (Table.mem_pending.mp (hsub event hevent)).1 hid
      simp [hfails]
    · simp [hid]
  cases hfails : fails other with
  | false => simp
  | true => simp [hkept hfails]

theorem Marks.unblocked (h : Marks fails batch s s') (hsub : ∀ event ∈ batch, event ∈ s.pending)
    (hfree : Unblocked fails batchSize s) : Unblocked fails batchSize s' := by
  intro row hrow hfails
  rw [h.pending] at hrow
  rw [h.blocking hsub]
  exact hfree row (List.mem_of_mem_filter hrow) hfails

theorem mem_pending_of_arranges (hsorted : s.Arranges arranged) (batchSize : ℕ) :
    ∀ event ∈ arranged.take batchSize, event ∈ s.pending :=
  fun _ hmem => hsorted.1.mem_iff.mp (List.mem_of_mem_take hmem)

/-- The first row that can be published is in the batch. -/
theorem exists_publishable_in_batch (hsorted : s.Arranges arranged)
    (hfree : Unblocked fails batchSize s) (hsome : s.publishable fails ≠ []) :
    ∃ row ∈ arranged.take batchSize, row ∈ s.pending ∧ fails row = false := by
  obtain ⟨some', hsome'⟩ := List.exists_mem_of_ne_nil _ hsome
  obtain ⟨hpending, hpub⟩ := List.mem_filter.mp hsome'
  have hfind : (arranged.find? fun row => !fails row).isSome = true :=
    List.find?_isSome.mpr ⟨some', hsorted.1.mem_iff.mpr hpending, hpub⟩
  obtain ⟨row, hrow⟩ := Option.isSome_iff_exists.mp hfind
  obtain ⟨hok, before, later, rfl, hbefore⟩ := List.find?_eq_some_iff_append.mp hrow
  have hfails : fails row = false := by simpa using hok
  have hmem : row ∈ s.pending :=
    hsorted.1.mem_iff.mp (List.mem_append_right _ List.mem_cons_self)
  refine ⟨row, ?_, hmem, hfails⟩
  have hlength : before.length ≤ (s.blocking fails row).length := by
    let blocks := fun other : OutboxEvent =>
      fails other && decide (other.createdAt ≤ row.createdAt)
    have hcount := (hsorted.1.filter blocks).length_eq
    have hall : before.filter blocks = before := by
      refine List.filter_eq_self.mpr fun other hother => ?_
      have hle := (List.pairwise_append.mp hsorted.2).2.2 other hother row List.mem_cons_self
      have hbad : fails other = true := by simpa using hbefore other hother
      simp [blocks, hbad, hle]
    rw [List.filter_append, hall, List.length_append] at hcount
    show before.length ≤ (s.pending.filter blocks).length
    omega
  have hprefix : before ++ [row] <+: (before ++ row :: later).take batchSize := by
    have hlt := hfree row hmem hfails
    refine List.prefix_take_iff.mpr ⟨⟨later, by simp⟩, ?_⟩
    simp only [List.length_append, List.length_singleton]
    omega
  exact hprefix.mem (List.mem_append_right _ (List.mem_singleton_self row))

/-- Every poll publishes a row, as long as there is one. -/
theorem publishable_lt (hsorted : s.Arranges arranged) (hfree : Unblocked fails batchSize s)
    (h : Marks fails (arranged.take batchSize) s s') (hsome : s.publishable fails ≠ []) :
    (s'.publishable fails).length < (s.publishable fails).length := by
  obtain ⟨row, hmem, hpending, hfails⟩ := exists_publishable_in_batch hsorted hfree hsome
  have hfewer : s'.publishable fails =
      (s.publishable fails).filter (Kept fails (arranged.take batchSize)) := by
    unfold Table.publishable
    rw [h.pending, List.filter_filter, List.filter_filter]
    exact List.filter_congr fun row _ => Bool.and_comm _ _
  rw [hfewer, List.length_filter_lt_length_iff_exists]
  refine ⟨row, List.mem_filter.mpr ⟨hpending, by simp [hfails]⟩, ?_⟩
  rw [not_kept_of_mem hmem hfails]
  exact Bool.false_ne_true

theorem length_publishable_iterate (hsteady : Steady net publisher fails) {n : ℕ}
    {r : Except String Unit} (hfree : Unblocked fails batchSize s)
    (h : (iterate publisher batchSize n).Runs (Answered net) s r s') :
    (s'.publishable fails).length ≤ (s.publishable fails).length - n ∧
      s'.contents = s.contents := by
  induction n generalizing s with
  | zero =>
    obtain ⟨-, rfl⟩ := Handler.runs_pure.mp h
    exact ⟨le_refl _, rfl⟩
  | succ n ih =>
    rcases Handler.runs_bind.mp h with ⟨result, s₁, hpoll, hrest⟩ | ⟨err, hpoll, -⟩
    · obtain ⟨-, arranged, hsorted, hmarks⟩ := marks_of_pollOutbox hsteady hpoll
      have hsub := mem_pending_of_arranges hsorted batchSize
      obtain ⟨hlength, hcontents⟩ := ih (hmarks.unblocked hsub hfree) hrest
      refine ⟨?_, hcontents.trans hmarks.contents⟩
      by_cases hnone : s.publishable fails = []
      · have hempty : s₁.publishable fails = [] := by
          unfold Table.publishable at hnone ⊢
          rw [hmarks.pending, List.filter_filter]
          rw [List.filter_eq_nil_iff] at hnone ⊢
          intro row hrow hboth
          exact hnone row hrow (Bool.and_eq_true_iff.mp hboth).1
        rw [hempty, List.length_nil] at hlength
        omega
      · have hlt := publishable_lt hsorted hfree hmarks hnone
        omega
    · obtain ⟨result, heq⟩ := (marks_of_pollOutbox hsteady hpoll).1
      cases heq

/-- The rows in the order that is worst for the rows that can be published. -/
def worst (fails : OutboxEvent → Bool) (s : Table) : List OutboxEvent :=
  s.pending.mergeSort fun a b =>
    a.createdAt < b.createdAt || (a.createdAt = b.createdAt && (fails a || !fails b))

theorem worst_pairwise (fails : OutboxEvent → Bool) (s : Table) :
    (worst fails s).Pairwise fun a b =>
      a.createdAt < b.createdAt ∨
        a.createdAt = b.createdAt ∧ (fails a = true ∨ fails b = false) := by
  have hsorted := @List.pairwise_mergeSort OutboxEvent (fun a b =>
    a.createdAt < b.createdAt || (a.createdAt = b.createdAt && (fails a || !fails b)))
    ?_ ?_ s.pending
  · refine hsorted.imp fun h => ?_
    simpa using h
  · intro a b c hab hbc
    simp only [Bool.or_eq_true, Bool.and_eq_true, decide_eq_true_eq, Bool.not_eq_true'] at *
    rcases hab with hab | ⟨hab, ha⟩ <;> rcases hbc with hbc | ⟨hbc, hb⟩
    · exact .inl (hab.trans hbc)
    · exact .inl (hbc ▸ hab)
    · exact .inl (hab ▸ hbc)
    · refine .inr ⟨hab.trans hbc, ?_⟩
      rcases ha with ha | ha
      · exact .inl ha
      · exact .inr (hb.resolve_left (by simp [ha]))
  · intro a b
    simp only [Bool.or_eq_true, Bool.and_eq_true, decide_eq_true_eq, Bool.not_eq_true']
    cases fails a <;> cases fails b <;> simp <;> omega

theorem worst_arranges (fails : OutboxEvent → Bool) (s : Table) : s.Arranges (worst fails s) := by
  refine ⟨List.mergeSort_perm _ _, (worst_pairwise fails s).imp fun h => ?_⟩
  omega

/-- In that order, a blocked row is not in the batch. -/
theorem not_mem_worst (hfails : fails row = false)
    (hblocked : batchSize ≤ (s.blocking fails row).length) :
    row ∉ (worst fails s).take batchSize := by
  intro hmem
  obtain ⟨before, later, heq⟩ := List.append_of_mem hmem
  have hsplit : worst fails s = before ++ row :: (later ++ (worst fails s).drop batchSize) := by
    rw [← List.cons_append, ← List.append_assoc, ← heq, List.take_append_drop]
  have hshort : before.length < batchSize := by
    have hle := List.length_take_le batchSize (worst fails s)
    rw [heq, List.length_append, List.length_cons] at hle
    omega
  let blocks := fun other : OutboxEvent => fails other && decide (other.createdAt ≤ row.createdAt)
  have hcount := ((worst_arranges fails s).1.filter blocks).length_eq
  have hnone : (row :: (later ++ (worst fails s).drop batchSize)).filter blocks = [] := by
    have hpair := worst_pairwise fails s
    rw [hsplit] at hpair
    have hafter := (List.pairwise_cons.mp (List.pairwise_append.mp hpair).2.1).1
    refine List.filter_eq_nil_iff.mpr fun other hother hblocks => ?_
    obtain ⟨hbad, hle⟩ := Bool.and_eq_true_iff.mp hblocks
    have hle := of_decide_eq_true hle
    rcases List.mem_cons.mp hother with rfl | hother
    · rw [hfails] at hbad
      cases hbad
    · rcases hafter other hother with hlt | ⟨-, hrow | hgood⟩
      · omega
      · rw [hfails] at hrow
        cases hrow
      · rw [hgood] at hbad
        cases hbad
  rw [hsplit, List.filter_append, hnone, List.append_nil] at hcount
  have hfiltered := List.length_filter_le blocks before
  have hsame : (s.blocking fails row).length = (s.pending.filter blocks).length := rfl
  omega

theorem iterate_ends (hsteady : Steady net publisher fails) (batchSize : ℕ) (s : Table) (n : ℕ) :
    ∃ r s', (iterate publisher batchSize n).Runs (Answered net) s r s' := by
  induction n generalizing s with
  | zero => exact ⟨_, s, Handler.runs_pure.mpr ⟨rfl, rfl⟩⟩
  | succ n ih =>
    obtain ⟨result, s₁, -, hpoll⟩ := pollOutbox_ends hsteady batchSize (worst_arranges fails s)
    obtain ⟨r, s', hrest⟩ := ih s₁
    exact ⟨r, s', Handler.runs_bind.mpr (.inl ⟨result, s₁, hpoll, hrest⟩)⟩

/-- A blocked row can stay pending for any number of polls. -/
theorem pending_of_blocked (hsteady : Steady net publisher fails) (batchSize : ℕ)
    (hrow : row ∈ s.pending) (hfails : fails row = false)
    (hblocked : batchSize ≤ (s.blocking fails row).length) (n : ℕ) :
    ∃ s', (iterate publisher batchSize n).Runs (Answered net) s (.ok ()) s' ∧ row ∈ s'.pending := by
  induction n generalizing s with
  | zero => exact ⟨s, Handler.runs_pure.mpr ⟨rfl, rfl⟩, hrow⟩
  | succ n ih =>
    have hsorted := worst_arranges fails s
    have hsub := mem_pending_of_arranges hsorted batchSize
    obtain ⟨result, s₁, hmarks, hpoll⟩ := pollOutbox_ends hsteady batchSize hsorted
    have hkept : row ∈ s₁.pending := by
      rw [hmarks.pending]
      refine List.mem_filter.mpr ⟨hrow, List.all_eq_true.mpr fun event hevent => ?_⟩
      have hne : row.id ≠ event.id := by
        intro hid
        obtain rfl := Table.eq_of_id (Table.mem_pending.mp hrow).1
          (Table.mem_pending.mp (hsub event hevent)).1 hid
        exact not_mem_worst hfails hblocked hevent
      simp [hne]
    obtain ⟨s', hrest, hpending⟩ := ih hkept (by rwa [hmarks.blocking hsub])
    exact ⟨s', Handler.runs_bind.mpr (.inl ⟨result, s₁, hpoll, hrest⟩), hpending⟩

/-- What is published is not pending any more. -/
theorem not_allPublished_of_pending (hrow : row ∈ s.pending) (hfails : fails row = false)
    (hrow' : row ∈ s'.pending) : ¬AllPublished fails s s' := by
  intro h
  obtain ⟨publishedAt, hmem⟩ := h row hrow hfails
  have heq := Table.eq_of_id (Table.mem_pending.mp hrow').1 hmem rfl
  have hnone := (Table.mem_pending.mp hrow').2
  rw [heq] at hnone
  cases hnone

/-- A row that is pending no more has been marked. -/
theorem allPublished_of_publishable_eq_nil (hcontents : s'.contents = s.contents)
    (hempty : s'.publishable fails = [])
    (hblind : ∀ row, fails row = fails row.written) : AllPublished fails s s' := by
  intro row hrow hfails
  obtain ⟨hmem, hnone⟩ := Table.mem_pending.mp hrow
  have hwritten : row ∈ s'.contents := by
    rw [hcontents]
    exact List.mem_map.mpr ⟨row, hmem, OutboxEvent.written_eq hnone⟩
  obtain ⟨row', hmem', heq⟩ := List.mem_map.mp hwritten
  cases hpub : row'.publishedAt with
  | some publishedAt =>
    refine ⟨publishedAt, ?_⟩
    rw [← heq]
    cases row'
    cases hpub
    exact hmem'
  | none =>
    have hstill := List.filter_eq_nil_iff.mp hempty row' (Table.mem_pending.mpr ⟨hmem', hpub⟩)
    rw [hblind, heq] at hstill
    simp [hfails] at hstill

end Iterate

/-- After as many polls as there are rows, every row that can be published has been published,
unless some row has as many rows that cannot be published before it as a batch holds. -/
theorem allPublished_iff (net : (c : sig.Cmd) → sig.Ans c → Prop) (publisher : EventPublisher)
    (fails : OutboxEvent → Bool) (batchSize : ℕ) (s : Table)
    (hsteady : Steady net publisher fails) :
    (∀ r s', (iterate publisher batchSize s.pending.length).Runs (Answered net) s r s' →
      AllPublished fails s s') ↔
    ∀ row ∈ s.pending, fails row = false → (s.blocking fails row).length < batchSize := by
  constructor
  · intro h row hrow hfails
    by_contra hblocked
    obtain ⟨s', hrun, hpending⟩ := pending_of_blocked hsteady batchSize hrow hfails
      (not_lt.mp hblocked) s.pending.length
    exact not_allPublished_of_pending hrow hfails hpending (h _ s' hrun)
  · intro hfree r s' hrun
    obtain ⟨hlength, hcontents⟩ := length_publishable_iterate hsteady hfree hrun
    have hle : (s.publishable fails).length ≤ s.pending.length := List.length_filter_le _ _
    refine allPublished_of_publishable_eq_nil hcontents (List.eq_nil_of_length_eq_zero (by omega))
      hsteady.blind

/-! ### A bus that refuses some messages -/

/-- The bus acknowledges every message but those with a refused id. -/
def refusing (refused : String → Bool) : (c : sig.Cmd) → sig.Ans c → Prop
  | .jsPublish _ _ msgID, r => r =
    if refused msgID then .error "maximum payload exceeded" else .ok ()
  | _, _ => True

def refusingBus : EventPublisher := natsEventPublisher fun _ => "1970-01-01T00:00:00.000Z"

theorem publishRuns_refusing {refused : String → Bool} {row : OutboxEvent} {s s' : Table}
    {r : Except String Unit} : PublishRuns (refusing refused) refusingBus row s r s' ↔
      r = (if refused row.id then .error "maximum payload exceeded" else .ok ()) ∧ s' = s := by
  refine Handler.runs_bind.trans ?_
  constructor
  · rintro (⟨now, s₁, hnow, hsend⟩ | ⟨err, hnow, -⟩)
    · obtain ⟨time, -, rfl⟩ := runs_dateNow.mp hnow
      exact Program.runs_call.mp hsend
    · obtain ⟨time, heq, -⟩ := runs_dateNow.mp hnow
      cases heq
  · rintro ⟨rfl, rfl⟩
    exact .inl ⟨0, _, runs_dateNow.mpr ⟨0, rfl, rfl⟩, Program.runs_call.mpr ⟨rfl, rfl⟩⟩

theorem steady_refusing (refused : String → Bool) :
    Steady (refusing refused) refusingBus fun row => refused row.id where
  ends row s := ⟨_, s, publishRuns_refusing.mpr ⟨rfl, rfl⟩⟩
  rejects row s r s' hfails h := by
    rw [(publishRuns_refusing.mp h).1, if_pos hfails]
    exact ⟨_, rfl⟩
  resolves row s r s' hfails h := by
    rw [(publishRuns_refusing.mp h).1, hfails]
    rfl

def tooLarge : OutboxEvent := ⟨"e-1", "usage.recorded", "\x7b\x7d", none, 1⟩

def small : OutboxEvent := ⟨"e-2", "budget.warning", "\x7b\x7d", none, 2⟩

/-- Two pending rows, the older one of which is refused. -/
def refusedFirst : Table := ⟨[tooLarge, small], by decide⟩

theorem allPublished_iff_batchOfTwo : ∃ r s',
    (iterate refusingBus 2 2).Runs (Answered (refusing (· = "e-1"))) refusedFirst r s' ∧
      AllPublished (fun row => row.id = "e-1") refusedFirst s' := by
  obtain ⟨r, s', hrun⟩ := iterate_ends (steady_refusing (· = "e-1")) 2 refusedFirst 2
  exact ⟨r, s', hrun, (allPublished_iff (refusing (· = "e-1")) refusingBus
    (fun row => row.id = "e-1") 2 refusedFirst (steady_refusing _)).mpr (by decide) r s' hrun⟩

theorem allPublished_fails : ∃ s', (iterate refusingBus 1 2).Runs (Answered (refusing (· = "e-1")))
    refusedFirst (.ok ()) s' ∧ ¬AllPublished (fun row => row.id = "e-1") refusedFirst s' := by
  have hsmall : small ∈ refusedFirst.pending := by decide
  obtain ⟨s', hrun, hpending⟩ := pending_of_blocked (steady_refusing (· = "e-1")) 1 hsmall
    (by decide) (by decide) 2
  exact ⟨s', hrun, not_allPublished_of_pending hsmall (by decide) hpending⟩

end CloudMesh.Outbox
