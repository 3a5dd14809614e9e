import CloudMesh.Jobs.Live

/-!
# Completed jobs

The completion of a row and its outbox event are one transaction. What comes after it can still undo
it: the publish of the completion may fail, and then the worker fails the attempt and runs it again,
and a failure of an earlier attempt may be written only now. A run without these two leaves a
completed job alone.

## Main definitions

- `committed` — the transaction of the completion has been answered
- `StaysCompleted` — what is to hold of a completed row
- `Unreplayed` — nobody replays the row
- `Uninterrupted` — what comes after a completion does not undo it
-/

namespace CloudMesh.Gateway

open Concurrent

/-- Whether the transaction that completes the row has committed. -/
def committed (id : Uuid) : List GatewayEvent → Bool
  | [] => false
  | ⟨_, .updateJob _ id' (.completed _), .ok true⟩ :: h => id' = id || committed id h
  | _ :: h => committed id h

/-- The row is completed and reported once, and no attempt at it waits or is under way. -/
structure StaysCompleted (id : Uuid) (c : GatewayConfig) : Prop where
  status : ∀ row ∈ c.world.shared.jobs, row.id = id → row.status = .completed
  waiting : ∀ entry ∈ c.world.shared.queue, entry.data.jobRecordId ≠ id
  running : ∀ p entry, phaseOf c p = .taken entry → entry.data.jobRecordId ≠ id
  reported : (c.world.shared.outbox.filterMap OutboxEvent.completion).count id = 1

def Unreplayed (id : Uuid) (_ : GatewayConfig) : Action sig Pid Drift Op → Prop
  | .command ⟨_, .updateJob _ id' .requeued, _⟩ => id' ≠ id
  | _ => True

instance (id : Uuid) (c : GatewayConfig) (a : Action sig Pid Drift Op) :
    Decidable (Unreplayed id c a) :=
  decidable_of_iff ((match a with
    | .command ⟨_, .updateJob _ id' .requeued, _⟩ => decide (id' ≠ id)
    | _ => true) = true) (by
      unfold Unreplayed
      split <;> simp only [decide_eq_true_eq])

/-- The publish of the completion does not fail, no failure is written after the completion, and a
completion that is answered by an error has been rolled back. -/
def Uninterrupted (id : Uuid) (c : GatewayConfig) (a : Action sig Pid Drift Op)
    (d : GatewayConfig) : Prop :=
  match a with
  | .command ⟨_, .publishJobProgress event, .error _⟩ =>
    ¬(event.jobId = id ∧ event.status = .completed)
  | .command ⟨_, .updateJob _ id' (.failed ..), _⟩ =>
    id' = id → committed id c.world.history = false
  | .command ⟨_, .updateJob _ id' (.completed _), .error _⟩ =>
    id' = id → d.world.shared.outbox = c.world.shared.outbox
  | _ => True

instance (id : Uuid) (c : GatewayConfig) (a : Action sig Pid Drift Op) (d : GatewayConfig) :
    Decidable (Uninterrupted id c a d) :=
  decidable_of_iff ((match a with
    | .command ⟨_, .publishJobProgress event, .error _⟩ =>
      decide ¬(event.jobId = id ∧ event.status = .completed)
    | .command ⟨_, .updateJob _ id' (.failed ..), _⟩ =>
      decide (id' = id → committed id c.world.history = false)
    | .command ⟨_, .updateJob _ id' (.completed _), .error _⟩ =>
      decide (id' = id → d.world.shared.outbox = c.world.shared.outbox)
    | _ => true) = true) (by
      unfold Uninterrupted
      split <;> simp only [decide_eq_true_eq])

/-! ## What is to be kept -/

namespace Phase

/-- The process has completed the row. -/
def Finished (id : Uuid) : Phase → Prop
  | .completed entry | .unannounced entry | .announced entry => entry.data.jobRecordId = id
  | _ => False

def Finishing : Phase → Prop
  | .completed _ | .announced _ => True
  | _ => False

theorem Finished.stake {id : Uuid} {phase : Phase} (h : phase.Finished id) : phase.Stake id := by
  cases phase with
  | completed entry | unannounced entry | announced entry => exact .inl ⟨entry, rfl, h⟩
  | _ => exact nomatch h

end Phase

namespace Board

variable {b b' : Board} {id : Uuid} {p : Pid} {h h' : List GatewayEvent}

/-- Nobody has completed the row yet. -/
structure Pending (b : Board) (id : Uuid) : Prop where
  unreported : b.completions.count id = 0
  unfinished : ∀ p, ¬(b.phase p).Finished id

structure Done (b : Board) (id : Uuid) : Prop where
  status : ∀ row ∈ b.rows, row.id = id → row.status = .completed
  waiting : ∀ entry ∈ b.queue, entry.data.jobRecordId ≠ id
  finishing : ∀ p, (b.phase p).Stake id → (b.phase p).Finishing
  reported : b.completions.count id = 1
  drawn : id.text ∈ b.drawn

/-- The row is completed at most once, and then for good. -/
structure Tracked (b : Board) (id : Uuid) (h : List GatewayEvent) : Prop where
  exclusive : b.Exclusive id h
  unreplayed : ∀ p row, b.phase p = .requeued row → row.id ≠ id
  before : committed id h = false → b.Pending id
  after : committed id h = true → b.Done id

/-- Every row `id` of the board `b'` has the status it had in `b`. -/
def StatusKept (id : Uuid) (b' b : Board) : Prop :=
  ∀ row' ∈ b'.rows, row'.id = id → ∃ row ∈ b.rows, row.id = id ∧ row'.status = row.status

theorem statusKept_of_eq (hrows : b'.rows = b.rows) : StatusKept id b' b :=
  fun row hrow hid => ⟨row, hrows ▸ hrow, hid, rfl⟩

theorem statusKept_of_written {orgId : OrgId} {id' : Uuid} {update : JobUpdate} {now : ℤ}
    (hrows : b'.rows = b.written orgId id' update now)
    (hu : id' = id → ∀ row, (update.apply now row).status = row.status) : StatusKept id b' b := by
  intro row' hrow' hid
  obtain ⟨row, hrow, heq, -, rfl | ⟨-, hid', rfl⟩⟩ := mem_written (hrows ▸ hrow')
  · exact ⟨_, hrow, hid, rfl⟩
  · have hrid : row.id = id := heq ▸ hid
    exact ⟨row, hrow, hrid, hu (hid'.symm.trans hrid) row⟩

theorem statusKept_of_append {row : JobRow} (hrows : b'.rows = b.rows ++ [row])
    (hne : row.id ≠ id) : StatusKept id b' b := by
  intro row' hrow' hid
  rcases List.mem_append.mp (hrows ▸ hrow') with hrow' | hrow'
  · exact ⟨row', hrow', hid, rfl⟩
  · rw [List.mem_singleton.mp hrow'] at hid
    exact absurd hid hne

/-- A process that is where it was, or has neither completed the row nor is to replay it, nor has
anything to do with it once it is completed. -/
def Unconcerned (id : Uuid) (done : Bool) (new old : Phase) : Prop :=
  new = old ∨ ¬new.Finished id ∧ (∀ row, new = .requeued row → row.id ≠ id) ∧
    (done = true → ¬new.Stake id)

theorem unconcerned_of_apart {done : Bool} {new : Phase} (hnew : new.Apart id) (old : Phase) :
    Unconcerned id done new old := by
  refine .inr ⟨fun hf => hnew.1 hf.stake, ?_, fun _ => hnew.1⟩
  rintro row rfl hid
  exact hnew.2 hid

/-- A step that completes no row keeps the invariant if it keeps what is completed. -/
theorem Tracked.frame (ht : b.Tracked id h) (hx : b'.Exclusive id h')
    (hcommitted : committed id h' = committed id h)
    (hphase : ∀ q, Unconcerned id (committed id h) (b'.phase q) (b.phase q))
    (hcount : b'.completions.count id = b.completions.count id)
    (hstatus : committed id h = true → StatusKept id b' b)
    (hqueue : committed id h = true → ∀ entry ∈ b'.queue, entry.data.jobRecordId ≠ id)
    (hdrawn : b.drawn ⊆ b'.drawn) : b'.Tracked id h' where
  exclusive := hx
  unreplayed q row hq := by
    rcases hphase q with hsame | ⟨-, hreq, -⟩
    · exact ht.unreplayed q row (hsame ▸ hq)
    · exact hreq row hq
  before hnot := by
    have hp := ht.before (hcommitted ▸ hnot)
    refine ⟨hcount.trans hp.unreported, fun q hf => ?_⟩
    rcases hphase q with hsame | ⟨hnew, -, -⟩
    · exact hp.unfinished q (hsame ▸ hf)
    · exact hnew hf
  after hdone := by
    have hd := ht.after (hcommitted ▸ hdone)
    refine ⟨fun row' hrow' hid => ?_, hqueue (hcommitted ▸ hdone), fun q hs => ?_,
      hcount.trans hd.reported, hdrawn hd.drawn⟩
    · obtain ⟨row, hrow, hrid, hst⟩ := hstatus (hcommitted ▸ hdone) row' hrow' hid
      exact hst.trans (hd.status row hrow hrid)
    · rcases hphase q with hsame | ⟨-, -, hnew⟩
      · exact hsame ▸ hd.finishing q (hsame ▸ hs)
      · exact absurd hs (hnew (hcommitted ▸ hdone))

theorem unconcerned_enter {done : Bool} {phase : Phase}
    (hnew : Unconcerned id done phase (b.phase p)) (q : Pid) :
    Unconcerned id done ((b.enter p phase).phase q) (b.phase q) :=
  forall_enter (P := fun q phase => Unconcerned id done phase (b.phase q)) hnew
    (fun _ _ => .inl rfl) q

theorem committed_cons {cmd : sig.Cmd} {r : sig.Ans cmd}
    (hupdate : ∀ orgId id update,
      (⟨cmd, r⟩ : Exchange sig) ≠ ⟨.updateJob orgId id update, .ok true⟩) :
    committed id (⟨p, cmd, r⟩ :: h) = committed id h := by
  cases cmd with
  | updateJob orgId id' update =>
    cases update with
    | completed result =>
      rcases r with err | _ | _
      · rfl
      · rfl
      · exact absurd rfl (hupdate _ _ _)
    | _ => rfl
  | _ => rfl

theorem committed_cons_of_ne {orgId : OrgId} {id' : Uuid} {update : JobUpdate}
    {r : sig.Ans (.updateJob orgId id' update)}
    (hu : ∀ result, update ≠ .completed result) :
    committed id (⟨p, .updateJob orgId id' update, r⟩ :: h) = committed id h := by
  cases update with
  | completed result => exact absurd rfl (hu result)
  | _ => rfl

theorem committed_cons_of_error {orgId : OrgId} {id' : Uuid} {update : JobUpdate} {err : Thrown} :
    committed id (⟨p, .updateJob orgId id' update, .error err⟩ :: h) = committed id h := by
  cases update <;> rfl

/-- Whoever asks the queue for an entry has made or reset the row. -/
theorem Move.phase_of_queueAdd {data : JobData} {priority : ℕ}
    {r : sig.Ans (.queueAdd data priority)} (hmove : b.Move p ⟨.queueAdd data priority, r⟩ b') :
    b.phase p = .created data.jobRecordId ∨
      ∃ row, b.phase p = .requeued row ∧ row.id = data.jobRecordId := by
  cases hmove with
  | other cmd r drawn hd hread hadd hupdate => exact absurd rfl (hadd data priority)
  | add entry r hp => exact hp
  | addLost data priority err hp => exact hp

theorem Tracked.exclusive_move (ht : b.Tracked id h) {e : Exchange sig} (hmove : b.Move p e b') :
    b'.Exclusive id (⟨p, e.1, e.2⟩ :: h) := by
  refine ht.exclusive.move hmove ?_
  rintro data priority r rfl rfl hreq
  rcases hmove.phase_of_queueAdd with hp | ⟨row, hp, hid⟩
  · rw [hp] at hreq
    cases hreq
  · exact absurd hid (ht.unreplayed p row hp)

/-- The row is completed by the only one who has had to do with it. -/
theorem Tracked.complete (ht : b.Tracked id h) {entry : QueueEntry} {result : JobResult} {now : ℤ}
    (hx : Exclusive { b.enter p (.completed entry) with
      rows := b.written entry.data.orgId entry.data.jobRecordId (.completed result) now
      completions := b.completions ++ [entry.data.jobRecordId] } id h')
    (hp : b.phase p = .taken entry) (hid : entry.data.jobRecordId = id)
    (hrow : ∃ row ∈ b.rows, row.orgId = entry.data.orgId ∧ row.id = entry.data.jobRecordId)
    (hcommitted : committed id h' = true) :
    Tracked { b.enter p (.completed entry) with
      rows := b.written entry.data.orgId entry.data.jobRecordId (.completed result) now
      completions := b.completions ++ [entry.data.jobRecordId] } id h' := by
  have hstake : (b.phase p).Stake id := .inl ⟨entry, by rw [hp]; rfl, hid⟩
  have hpending : b.Pending id := by
    refine ht.before (Bool.eq_false_iff.mpr fun hdone => ?_)
    have hfinishing := (ht.after hdone).finishing p hstake
    rw [hp] at hfinishing
    exact hfinishing
  refine ⟨hx, ?_, fun hnot => ?_, fun _ => ⟨?_, ?_, ?_, ?_, ?_⟩⟩
  · exact forall_enter (P := fun _ phase => ∀ row, phase = .requeued row → row.id ≠ id)
      (fun _ heq => by cases heq) fun q _ => ht.unreplayed q
  · rw [hcommitted] at hnot
    cases hnot
  · intro row' hrow' hrid
    obtain ⟨row, hrow, rfl⟩ := List.mem_map.mp hrow'
    split
    · rfl
    · rename_i hnot
      obtain ⟨r, hr, horg, hrid'⟩ := ‹∃ row ∈ b.rows, _›
      rw [if_neg hnot] at hrid
      exact absurd ⟨(ht.exclusive.orgs row hrow r hr hrid (hrid'.trans hid)).trans horg,
        hrid.trans hid.symm⟩ hnot
  · intro e he heid
    exact ht.exclusive.unstaked_of_queue he heid p hstake
  · refine forall_enter (P := fun _ phase => phase.Stake id → phase.Finishing) (fun _ => trivial)
      fun q hqp hs => absurd (ht.exclusive.alone q p hs hstake) hqp
  · show (b.completions ++ _).count id = 1
    rw [List.count_append, hpending.unreported, hid, List.count_singleton_self]
  · exact ht.exclusive.drawn_of_stake hstake

section Moves

variable (ht : b.Tracked id h)

include ht

/-- A worker whose entry is of a completed row is done with it. -/
theorem Tracked.not_done {entry : QueueEntry}
    (hp : b.phase p = .taken entry ∨ b.phase p = .unannounced entry)
    (hid : entry.data.jobRecordId = id) : committed id h ≠ true := by
  intro hdone
  have hheld := Phase.held_of_working hp
  have hfinishing := (ht.after hdone).finishing p (.inl ⟨entry, hheld, hid⟩)
  rcases hp with hp | hp
  · rw [hp] at hfinishing
    exact hfinishing
  · rw [hp] at hfinishing
    exact hfinishing

/-- A step that adds no entry keeps what waits. -/
theorem Tracked.waiting {queue : List QueueEntry} (hqueue : queue ⊆ b.queue)
    (hdone : committed id h = true) : ∀ entry ∈ queue, entry.data.jobRecordId ≠ id :=
  fun entry he => (ht.after hdone).waiting entry (hqueue he)

/-- The frame of a step that changes rows and phases only. -/
theorem Tracked.frame_phase {phase : Pid → Phase} {rows : List JobRow} {active : List QueueEntry}
    (hx : Exclusive { b with rows := rows, active := active, phase := phase } id h')
    (hcommitted : committed id h' = committed id h)
    (hphase : ∀ q, Unconcerned id (committed id h) (phase q) (b.phase q))
    (hstatus : committed id h = true →
      StatusKept id { b with rows := rows, active := active, phase := phase } b) :
    Tracked { b with rows := rows, active := active, phase := phase } id h' :=
  ht.frame hx hcommitted hphase rfl hstatus (fun hdone => ht.waiting (List.Subset.refl _) hdone)
    fun _ hd => hd

theorem Tracked.retried {entry : QueueEntry}
    (hp : b.phase p = .taken entry ∨ b.phase p = .unannounced entry)
    (hdone : committed id h = true) :
    ∀ e ∈ b.queue ++ entry.retried.toList, e.data.jobRecordId ≠ id := by
  intro e he heid
  rcases List.mem_append.mp he with he | he
  · exact (ht.after hdone).waiting e he heid
  · have hdata := QueueEntry.data_retried (Option.mem_toList.mp he)
    exact ht.not_done hp (hdata ▸ heid) hdone

theorem Tracked.announce {entry : QueueEntry}
    (hx : Exclusive (b.enter p (.announced entry)) id h') (hp : b.phase p = .completed entry)
    (hcommitted : committed id h' = committed id h) :
    Tracked (b.enter p (.announced entry)) id h' := by
  refine ⟨hx, ?_, fun hnot => ?_, fun hdone => ?_⟩
  · exact forall_enter (P := fun _ phase => ∀ row, phase = .requeued row → row.id ≠ id)
      (fun _ heq => by cases heq) fun q _ => ht.unreplayed q
  · obtain ⟨hunreported, hunfinished⟩ := ht.before (hcommitted ▸ hnot)
    have hfinished := hunfinished p
    rw [hp] at hfinished
    exact ⟨hunreported, forall_enter (P := fun _ phase => ¬phase.Finished id) hfinished
      fun q _ => hunfinished q⟩
  · have hd := ht.after (hcommitted ▸ hdone)
    exact ⟨hd.status, hd.waiting,
      forall_enter (P := fun _ phase => phase.Stake id → phase.Finishing) (fun _ => trivial)
        fun q _ => hd.finishing q, hd.reported, hd.drawn⟩

/-- What comes after the completion of a row does not undo it, if nothing fails that must not. -/
theorem Tracked.move {e : Exchange sig} (hmove : b.Move p e b')
    (hreplay : ∀ orgId r, e ≠ ⟨.updateJob orgId id .requeued, r⟩)
    (hpublish : ∀ event err, e = ⟨.publishJobProgress event, .error err⟩ →
      ¬(event.jobId = id ∧ event.status = .completed))
    (hfailed : ∀ orgId message final r, e = ⟨.updateJob orgId id (.failed message final), r⟩ →
      committed id h = false)
    (hcompleted : ∀ orgId result err, e = ⟨.updateJob orgId id (.completed result), .error err⟩ →
      b'.completions = b.completions) : b'.Tracked id (⟨p, e.1, e.2⟩ :: h) := by
  have hx := ht.exclusive_move hmove
  have hover : ∀ q, Unconcerned id (committed id h) ((b.enter p .over).phase q) (b.phase q) :=
    unconcerned_enter (unconcerned_of_apart (Phase.apart_over id) _)
  cases hmove with
  | other cmd r drawn hd hread hadd hupdate =>
    exact ht.frame hx (committed_cons hupdate) (fun _ => .inl rfl) rfl
      (fun _ => statusKept_of_eq rfl) (fun hdone => ht.waiting (List.Subset.refl _) hdone) hd
  | read orgId id' r found hp hrow =>
    refine ht.frame_phase hx rfl (unconcerned_enter ?_) fun _ => statusKept_of_eq rfl
    rcases Phase.reading_cases (b.phase p) found with ⟨-, hsame⟩ | hidle | ⟨row, -, -, hread⟩
    · exact .inl hsame
    · rw [hidle]
      exact unconcerned_of_apart (Phase.apart_idle id) _
    · rw [hread]
      exact .inr ⟨fun hf => hf, (fun _ heq => by cases heq),
        fun _ => Phase.not_stake_replayable id row⟩
  | create orgId apiKeyId payload priority row hp horg hstatus hfresh =>
    have hne : committed id h = true → row.id ≠ id :=
      fun hdone hid => hfresh (hid ▸ (ht.after hdone).drawn)
    refine ht.frame hx rfl
      (unconcerned_enter (.inr ⟨fun hf => hf, (fun _ heq => by cases heq), ?_⟩))
      rfl (fun hdone => statusKept_of_append rfl (hne hdone))
      (fun hdone => ht.waiting (List.Subset.refl _) hdone) (List.subset_cons_self _ _)
    exact fun hdone => Phase.not_stake rfl (hne hdone)
  | createLost orgId apiKeyId payload priority row err hstatus hfresh =>
    have hne : committed id h = true → row.id ≠ id :=
      fun hdone hid => hfresh (hid ▸ (ht.after hdone).drawn)
    exact ht.frame hx rfl (fun _ => .inl rfl) rfl
      (fun hdone => statusKept_of_append rfl (hne hdone))
      (fun hdone => ht.waiting (List.Subset.refl _) hdone) (List.subset_cons_self _ _)
  | add entry r hp horg hnumber =>
    refine ht.frame hx rfl hover rfl (fun _ => statusKept_of_eq rfl) (fun hdone e he heid => ?_)
      (List.Subset.refl _)
    rcases List.mem_append.mp he with he | he
    · exact (ht.after hdone).waiting e he heid
    · -- an entry for the row would be of a replay, or of a request that owes it one
      rw [List.mem_singleton.mp he] at heid
      rcases hp with hp | ⟨row, hp, hrid⟩
      · have hfinishing := (ht.after hdone).finishing p (.inr (by rw [hp]; exact heid))
        rw [hp] at hfinishing
        exact hfinishing
      · exact ht.unreplayed p row hp (hrid.trans heid)
  | addLost data priority err hp =>
    exact ht.frame_phase hx rfl hover fun _ => statusKept_of_eq rfl
  | take entry hp hentry =>
    refine ht.frame hx rfl
      (unconcerned_enter (.inr ⟨fun hf => hf, (fun _ heq => by cases heq), ?_⟩))
      rfl (fun _ => statusKept_of_eq rfl)
      (fun hdone => ht.waiting (List.erase_subset) hdone) fun _ hd => hd
    rintro hdone (⟨e, heq, heid⟩ | ho)
    · cases heq
      exact (ht.after hdone).waiting _ hentry heid
    · exact ho
  | takeLost entry err hp hentry =>
    exact ht.frame hx rfl (fun _ => .inl rfl) rfl (fun _ => statusKept_of_eq rfl)
      (fun hdone => ht.waiting (List.erase_subset) hdone) fun _ hd => hd
  | work entry update now r hp hu =>
    refine ht.frame_phase hx (committed_cons_of_ne ?_) (fun _ => .inl rfl) fun hdone =>
      statusKept_of_written rfl fun hid => absurd hdone (ht.not_done (.inl hp) hid)
    rintro result rfl
    rcases hu with ⟨n, hn⟩ | ⟨n, hn⟩ <;> cases hn
  | complete entry result now hp hrow =>
    by_cases hid : entry.data.jobRecordId = id
    · exact ht.complete hx hp hid hrow (by simp [committed, hid])
    · refine ht.frame hx (by simp [committed, hid])
        (unconcerned_enter (unconcerned_of_apart (Phase.apart_of_held rfl hid) _)) ?_
        (fun _ => statusKept_of_written rfl fun heq => absurd heq hid)
        (fun hdone => ht.waiting (List.Subset.refl _) hdone) fun _ hd => hd
      show (b.completions ++ [_]).count id = _
      rw [List.count_append, List.count_singleton, if_neg (by simpa using hid), Nat.add_zero]
  | completeLost entry result now err hp =>
    by_cases hid : entry.data.jobRecordId = id
    · subst hid
      -- the write has been made and its reply lost, which is what must not happen
      have hsame : b.completions ++ [_] = b.completions := hcompleted _ _ _ rfl
      simp at hsame
    · refine ht.frame hx rfl (fun _ => .inl rfl) ?_
        (fun _ => statusKept_of_written rfl fun heq => absurd heq hid)
        (fun hdone => ht.waiting (List.Subset.refl _) hdone) fun _ hd => hd
      show (b.completions ++ [_]).count id = _
      rw [List.count_append, List.count_singleton, if_neg (by simpa using hid), Nat.add_zero]
  | announce entry event hp hid hstatus => exact ht.announce hx hp rfl
  | announceLost entry event err hp hid hstatus =>
    -- only the event of another job may be lost
    have hne : entry.data.jobRecordId ≠ id :=
      fun heq => hpublish event err rfl ⟨hid.trans heq, hstatus⟩
    exact ht.frame_phase hx rfl
      (unconcerned_enter (unconcerned_of_apart (Phase.apart_of_held rfl hne) _))
      fun _ => statusKept_of_eq rfl
  | finish entry r hp => exact ht.frame_phase hx rfl hover fun _ => statusKept_of_eq rfl
  | finishLost entry err hp => exact ht.frame_phase hx rfl hover fun _ => statusKept_of_eq rfl
  | fail entry hp =>
    refine ht.frame hx rfl
      (unconcerned_enter (.inr ⟨fun hf => hf, (fun _ heq => by cases heq), ?_⟩))
      rfl (fun _ => statusKept_of_eq rfl) (ht.retried hp) fun _ hd => hd
    exact fun hdone => Phase.not_stake rfl fun ho => ht.not_done hp ho.2 hdone
  | failLost entry err hp =>
    exact ht.frame hx rfl hover rfl (fun _ => statusKept_of_eq rfl) (ht.retried hp) fun _ hd => hd
  | failSkipped entry err hp => exact ht.frame_phase hx rfl hover fun _ => statusKept_of_eq rfl
  | markFailed entry message now r hp =>
    refine ht.frame_phase hx (committed_cons_of_ne fun _ heq => by cases heq) hover fun hdone =>
      statusKept_of_written rfl fun hid => ?_
    subst hid
    exact absurd (hfailed _ _ _ _ rfl) (by rw [hdone]; exact Bool.noConfusion)
  | markFailedLost entry message err hp =>
    exact ht.frame_phase hx committed_cons_of_error hover fun _ => statusKept_of_eq rfl
  | requeue row now hp hrow =>
    have hne : row.id ≠ id := by
      rintro rfl
      exact hreplay _ _ rfl
    exact ht.frame_phase hx rfl
      (unconcerned_enter (unconcerned_of_apart ⟨Phase.not_stake_requeued id row, hne⟩ _))
      fun _ => statusKept_of_written rfl fun heq => absurd heq hne
  | requeueLost row now err hp =>
    refine ht.frame_phase hx (committed_cons_of_ne fun _ heq => by cases heq) hover fun _ =>
      statusKept_of_written rfl fun hid => ?_
    subst hid
    exact absurd rfl (hreplay _ _)
  | requeueSkipped row r hp => exact ht.frame_phase hx rfl hover fun _ => statusKept_of_eq rfl
  | note orgId id' bullJobId now r hp =>
    exact ht.frame_phase hx (committed_cons_of_ne fun _ heq => by cases heq) (fun _ => .inl rfl)
      fun _ => statusKept_of_written rfl fun _ _ => rfl

end Moves

theorem Done.staysCompleted {c : GatewayConfig} (hd : (boardOf c).Done id) :
    StaysCompleted id c := by
  refine ⟨hd.status, hd.waiting, fun p entry hp hid => ?_, hd.reported⟩
  have hphase : (boardOf c).phase p = .taken entry := hp
  have hfinishing := hd.finishing p (.inl ⟨entry, by rw [hphase]; rfl, hid⟩)
  rw [hphase] at hfinishing
  exact hfinishing

end Board

/-! ## Every run -/

section Runs

variable {deps : Deps} {id : Uuid}

theorem tracked_init (organizations : OrgId → Option OrgRow) (billingPlans : String → Option ℚ) :
    (boardOf (.init (.fresh organizations billingPlans))).Tracked id [] := by
  refine ⟨exclusive_init organizations billingPlans id, fun _ _ hp => ?_, fun _ => ⟨rfl, ?_⟩,
    fun hdone => ?_⟩
  · cases hp
  · exact fun p hf => hf
  · cases hdone

theorem tracked_step {c d : GatewayConfig} {a : Action sig Pid Drift Op}
    (hconf : System.Conforms JobRule JobEnded c) (ht : (boardOf c).Tracked id c.world.history)
    (hreplay : Unreplayed id c a) (hal : Uninterrupted id c a d)
    (hstep : (gateway deps).Steps c a d) : (boardOf d).Tracked id d.world.history := by
  rcases move_of_steps hconf hstep with ⟨hsame, hne⟩ | ⟨e, rfl, hmove⟩
  · rw [hsame]
    cases hstep with
    | start => exact ht
    | drift => exact ht
    | command => exact absurd rfl (hne _)
  · cases hstep with
    | @command p i P cmd k r s hp hk hexec =>
      refine ht.move hmove (fun orgId r' heq => ?_) (fun event err heq => ?_)
        (fun orgId message final r' heq => ?_) fun orgId result err heq => ?_
      · cases heq
        exact hreplay rfl
      · cases heq
        exact hal
      · cases heq
        exact hal rfl
      · cases heq
        exact congrArg (List.filterMap OutboxEvent.completion) (hal rfl)

/-- In a run in which nothing undoes its completion, a row that nobody replays stays completed. -/
theorem staysCompleted_of_uninterrupted (deps : Deps) (organizations : OrgId → Option OrgRow)
    (billingPlans : String → Option ℚ) (ls : List GatewayLabel) (c : GatewayConfig) (id : Uuid)
    (hrun : (gateway deps).run (.init (.fresh organizations billingPlans)) ls = some c)
    (hreplay : (gateway deps).Along (Unreplayed id) (.init (.fresh organizations billingPlans)) ls)
    (hal : (gateway deps).Through (Uninterrupted id) (.init (.fresh organizations billingPlans)) ls)
    (hdone : committed id c.world.history = true) : StaysCompleted id c := by
  have ht : (boardOf c).Tracked id c.world.history :=
    System.invariant_run_through (I := fun c => (boardOf c).Tracked id c.world.history)
      (obeys_jobRule deps) (fun c a d hconf ht ha hstep =>
        tracked_step hconf ht ha.1 ha.2 hstep) (System.conforms_init _)
      (tracked_init organizations billingPlans) hrun (hreplay.through.and hal)
  exact (ht.after hdone).staysCompleted

end Runs

/-! ### A job and its completion -/

/-- An attempt up to the commit of the completion. -/
def succeeding : List Choice :=
  [.index 0, .nothing, .nothing, .nothing, .chat (.ok (greeted "chatcmpl-1")), .nothing, .nothing,
    .nothing, .nothing]

def attempted : List GatewayLabel :=
  .start ⟨tenantA, 0⟩ (.createJob bulkGreeting) ::
    steps ⟨tenantA, 0⟩ [.nothing, .nothing, .nothing, .id jobA, .nothing, .nothing] ++
  .start ⟨tenantA, 1⟩ .processJob :: steps ⟨tenantA, 1⟩ succeeding

/-- The completion is published, and the entry leaves the queue. -/
def settled : List GatewayLabel := attempted ++ steps ⟨tenantA, 1⟩ [.nothing, .nothing]

theorem staysCompleted_of_uninterrupted_settled :
    ∃ c, (gateway plainDeps).run (.init (.fresh (fun _ => none) (fun _ => none))) settled =
      some c ∧ committed jobA c.world.history = true ∧ StaysCompleted jobA c := by
  have hres : ((gateway plainDeps).run (.init (.fresh (fun _ => none) (fun _ => none)))
      settled).map (fun c => committed jobA c.world.history) = some true := by
    decide +kernel
  obtain ⟨c, hrun, hc⟩ := Option.map_eq_some_iff.mp hres
  exact ⟨c, hrun, hc, staysCompleted_of_uninterrupted plainDeps _ _ _ c jobA hrun
    (by decide +kernel) (by decide +kernel) hc⟩

/-- The publish fails, and the queue runs the job again. -/
def unannounced : List GatewayLabel :=
  attempted ++ ([.step ⟨tenantA, 1⟩ ⟨.nothing, some (.error "Connection is closed.", false)⟩] :
    List GatewayLabel) ++ steps ⟨tenantA, 1⟩ [.nothing]

theorem staysCompleted_fails :
    ∃ c, (gateway plainDeps).run (.init (.fresh (fun _ => none) (fun _ => none))) unannounced =
        some c ∧
      (gateway plainDeps).Along (Unreplayed jobA) (.init (.fresh (fun _ => none) (fun _ => none)))
        unannounced ∧
      committed jobA c.world.history = true ∧ ¬StaysCompleted jobA c := by
  have hres : ((gateway plainDeps).run (.init (.fresh (fun _ => none) (fun _ => none)))
      unannounced).map (fun c => (committed jobA c.world.history,
        c.world.shared.queue.map fun entry => entry.data.jobRecordId)) = some (true, [jobA]) := by
    decide +kernel
  obtain ⟨c, hrun, hc⟩ := Option.map_eq_some_iff.mp hres
  obtain ⟨hdone, hqueue⟩ := Prod.mk.inj hc
  refine ⟨c, hrun, by decide +kernel, hdone, fun h => ?_⟩
  obtain ⟨entry, hentry, hid⟩ := List.mem_map.mp (hqueue ▸ List.mem_singleton_self jobA)
  exact h.waiting entry hentry hid

end CloudMesh.Gateway
