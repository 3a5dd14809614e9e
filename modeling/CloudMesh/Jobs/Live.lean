import CloudMesh.Jobs.Board
import Mathlib.Data.List.Count

/-!
# One live entry for each row

A row of `jobs` is executed through an entry of the queue, and two entries of one row would race
each other's writes. `replayJob` therefore adds an entry only to a row it has read as dead. That is
enough if nobody has added one since that read; if somebody has, the row gets a second entry.

## Main definitions

- `LiveOnce` — no row has two entries
- `ReplaysApart` — a replay adds the first entry since it read the row
- `Exclusive` — the invariant of one row
-/

namespace CloudMesh.Gateway

open Concurrent

/-- The entries of a row, waiting or with a worker. -/
def Store.liveEntries (s : Store) (id : Uuid) : List QueueEntry :=
  (s.queue ++ s.active).filter fun entry => entry.data.jobRecordId = id

/-- At most one entry refers to each row. -/
def LiveOnce (c : GatewayConfig) : Prop := ∀ id, (c.world.shared.liveEntries id).length ≤ 1

/-- Whether the queue has been asked for an entry of the row since the process last read a row. -/
def addedSince (id : Uuid) : List GatewayEvent → Pid → Bool
  | [], _ => false
  | ⟨q, .findJob .., _⟩ :: h, p => if q = p then false else addedSince id h p
  | ⟨_, .queueAdd data _, _⟩ :: h, p => data.jobRecordId = id || addedSince id h p
  | _ :: h, p => addedSince id h p

def Phase.isRequeued : Phase → Bool
  | .requeued _ => true
  | _ => false

/-- Nobody has enqueued the job since the replay that enqueues it has read it as dead. -/
def ReplaysApart (c : GatewayConfig) : Action sig Pid Drift Op → Prop
  | .command ⟨p, .queueAdd data _, _⟩ => (phaseOf c p).isRequeued = true →
      addedSince data.jobRecordId c.world.history p = false
  | _ => True

instance (c : GatewayConfig) (a : Action sig Pid Drift Op) : Decidable (ReplaysApart c a) :=
  decidable_of_iff ((match a with
    | .command ⟨p, .queueAdd data _, _⟩ =>
      decide ((phaseOf c p).isRequeued = true →
        addedSince data.jobRecordId c.world.history p = false)
    | _ => true) = true) (by
      unfold ReplaysApart
      split <;> simp only [decide_eq_true_eq])

/-! ## What a process has to do with a row -/

namespace Phase

/-- The entry that a worker has taken. -/
def held : Phase → Option QueueEntry
  | .taken entry | .completed entry | .unannounced entry | .announced entry => some entry
  | _ => none

/-- The row has no entry, and the process is about to change that or to declare the row dead. -/
def Owes (id : Uuid) : Phase → Prop
  | .created id' => id' = id
  | .failed entry => entry.isLastAttempt = true ∧ entry.data.jobRecordId = id
  | _ => False

/-- The process executes the row or decides what becomes of it. -/
def Stake (id : Uuid) (phase : Phase) : Prop :=
  (∃ entry, phase.held = some entry ∧ entry.data.jobRecordId = id) ∨ phase.Owes id

/-- The process has read the row as dead, and is to replay it. -/
def Replays (id : Uuid) : Phase → Prop
  | .replayable row | .requeued row => row.id = id
  | _ => False

/-- The process has nothing to do with the row. -/
def Apart (id : Uuid) (phase : Phase) : Prop := ¬phase.Stake id ∧ ¬phase.Replays id

variable {id : Uuid} {old new phase : Phase}

/-- Everything that the process has to do with the row, it has had to do before. -/
structure Keeps (id : Uuid) (new old : Phase) : Prop where
  held : ∀ entry, new.held = some entry → entry.data.jobRecordId = id → old.held = some entry
  owes : new.Owes id → old.Owes id
  replays : new.Replays id → old.Replays id
  requeued : ∀ row, new = .requeued row → row.id = id → old = .requeued row

theorem Keeps.refl (id : Uuid) (phase : Phase) : phase.Keeps id phase :=
  ⟨fun _ h _ => h, fun h => h, fun h => h, fun _ h _ => h⟩

theorem Keeps.stake (h : new.Keeps id old) (hs : new.Stake id) : old.Stake id := by
  rcases hs with ⟨entry, he, hid⟩ | ho
  · exact .inl ⟨entry, h.held entry he hid, hid⟩
  · exact .inr (h.owes ho)

theorem Apart.keeps (h : new.Apart id) (old : Phase) : new.Keeps id old := by
  refine ⟨fun entry he hid => absurd (.inl ⟨entry, he, hid⟩) h.1,
    fun ho => absurd (.inr ho) h.1, fun hr => absurd hr h.2, ?_⟩
  rintro row rfl hid
  exact absurd hid h.2

theorem reading_cases (phase : Phase) (found : Option JobRow) :
    (∀ row, phase ≠ .replayable row) ∧ phase.reading found = phase ∨
      phase.reading found = .idle ∨
      ∃ row, found = some row ∧ row.status = .deadLetter ∧
        phase.reading found = .replayable row := by
  have hbegin : ∀ {phase : Phase}, (phase = .idle ∨ ∃ row, phase = .replayable row) →
      phase.reading found = .idle ∨ ∃ row, found = some row ∧ row.status = .deadLetter ∧
        phase.reading found = .replayable row := by
    intro phase hphase
    have hread : phase.reading found = (Phase.idle).reading found := by
      rcases hphase with rfl | ⟨row, rfl⟩ <;> rfl
    rw [hread]
    unfold reading
    cases found with
    | none => exact .inl rfl
    | some row =>
      by_cases hdead : row.status = .deadLetter
      · exact .inr ⟨row, rfl, hdead, if_pos hdead⟩
      · exact .inl (if_neg hdead)
  cases phase with
  | idle => exact .inr (hbegin (.inl rfl))
  | replayable row => exact .inr (hbegin (.inr ⟨row, rfl⟩))
  | _ => exact .inl ⟨(fun _ h => by cases h), rfl⟩

theorem not_stake (hheld : phase.held = none) (howes : ¬phase.Owes id) : ¬phase.Stake id := by
  rintro (⟨entry, he, -⟩ | ho)
  · cases hheld.symm.trans he
  · exact howes ho

theorem apart_over (id : Uuid) : Phase.over.Apart id := ⟨not_stake rfl (fun h => h), fun h => h⟩

theorem apart_idle (id : Uuid) : Phase.idle.Apart id := ⟨not_stake rfl (fun h => h), fun h => h⟩

theorem not_stake_replayable (id : Uuid) (row : JobRow) : ¬(Phase.replayable row).Stake id :=
  not_stake rfl fun h => h

theorem not_stake_requeued (id : Uuid) (row : JobRow) : ¬(Phase.requeued row).Stake id :=
  not_stake rfl fun h => h

theorem held_of_working {entry : QueueEntry}
    (h : phase = .taken entry ∨ phase = .unannounced entry) : phase.held = some entry := by
  rcases h with rfl | rfl <;> rfl

/-- What a worker holds is of one row only. -/
theorem apart_of_held {entry : QueueEntry} (hphase : phase.held = some entry)
    (hid : entry.data.jobRecordId ≠ id) : phase.Apart id := by
  cases phase with
  | taken e | completed e | unannounced e | announced e =>
    cases hphase
    refine ⟨?_, fun hr => hr⟩
    rintro (⟨e, heq, heid⟩ | ho)
    · cases heq
      exact hid heid
    · exact ho
  | _ => cases hphase

/-- A worker goes on with its entry. -/
theorem keeps_of_held {entry : QueueEntry} (hnew : new.held = some entry)
    (hold : old.held = some entry) : new.Keeps id old := by
  have hnot : ∀ {phase : Phase}, phase.held = some entry → ¬phase.Owes id ∧ ¬phase.Replays id := by
    intro phase h
    cases phase <;> first | exact ⟨fun h => h, fun h => h⟩ | cases h
  refine ⟨fun e he _ => by rw [hold, ← hnew, he], fun ho => absurd ho (hnot hnew).1,
    fun hr => absurd hr (hnot hnew).2, ?_⟩
  rintro row rfl hid
  cases hnew

end Phase

theorem JobUpdate.id_apply (update : JobUpdate) (now : ℤ) (row : JobRow) :
    (update.apply now row).id = row.id := by
  cases update <;> rfl

/-- Only the last failure makes a row dead. -/
theorem JobUpdate.status_apply {update : JobUpdate} {now : ℤ} {row : JobRow}
    (hu : ∀ message, update ≠ .failed message true)
    (h : (update.apply now row).status = .deadLetter) : row.status = .deadLetter := by
  cases update with
  | failed message isFinalAttempt =>
    cases isFinalAttempt with
    | true => exact absurd rfl (hu message)
    | false => cases h
  | running | completed | requeued => cases h
  | enqueued | progress => exact h

namespace Board

variable {b b' : Board} {id : Uuid} {p : Pid} {h : List GatewayEvent}

def load (b : Board) (id : Uuid) : ℕ :=
  b.queue.countP (fun entry => entry.data.jobRecordId = id) +
    b.active.countP fun entry => entry.data.jobRecordId = id

/-- The row has at most one entry, and whoever has a stake in it is the only one. -/
structure Exclusive (b : Board) (id : Uuid) (h : List GatewayEvent) : Prop where
  one : b.load id ≤ 1
  held : ∀ p entry, (b.phase p).held = some entry → entry.data.jobRecordId = id →
    entry ∈ b.active
  owed : ∀ p, (b.phase p).Owes id → b.load id = 0
  alone : ∀ p q, (b.phase p).Stake id → (b.phase q).Stake id → p = q
  /-- A dead row is nobody's. -/
  dead : ∀ row ∈ b.rows, row.id = id → row.status = .deadLetter →
    b.load id = 0 ∧ ∀ p, ¬(b.phase p).Stake id
  /-- So is one that has been read as dead, until somebody enqueues it. -/
  replayed : ∀ p, (b.phase p).Replays id → addedSince id h p = false →
    b.load id = 0 ∧ ∀ q, ¬(b.phase q).Stake id
  reset : ∀ p row, b.phase p = .requeued row → row.id = id → addedSince id h p = false →
    ∀ row' ∈ b.rows, row'.id = id → row'.status ≠ .deadLetter
  orgs : ∀ row ∈ b.rows, ∀ row' ∈ b.rows, row.id = id → row'.id = id → row.orgId = row'.orgId
  fresh : id.text ∉ b.drawn → (∀ row ∈ b.rows, row.id ≠ id) ∧ b.load id = 0 ∧
    ∀ p, (b.phase p).Apart id

/-! ## Frames -/

theorem mem_written {row' : JobRow} {orgId : OrgId} {id' : Uuid} {update : JobUpdate} {now : ℤ}
    (hrow : row' ∈ b.written orgId id' update now) :
    ∃ row ∈ b.rows, row'.id = row.id ∧ row'.orgId = row.orgId ∧
      (row' = row ∨ row.orgId = orgId ∧ row.id = id' ∧ row' = update.apply now row) := by
  obtain ⟨row, hmem, rfl⟩ := List.mem_map.mp hrow
  refine ⟨row, hmem, ?_⟩
  split
  · rename_i hmatch
    exact ⟨update.id_apply now row, update.orgId_apply now row, .inr ⟨hmatch.1, hmatch.2, rfl⟩⟩
  · exact ⟨rfl, rfl, .inl rfl⟩

/-- The rows of the board `b'` that are of the row `id` stem from rows of `b`, and no other one is
dead. -/
def RowsFrom (id : Uuid) (b' b : Board) : Prop :=
  ∀ row' ∈ b'.rows, row'.id = id → ∃ row ∈ b.rows, row.id = id ∧ row.orgId = row'.orgId ∧
    (row'.status = .deadLetter → row.status = .deadLetter)

theorem rowsFrom_of_subset (hrows : b'.rows ⊆ b.rows) : RowsFrom id b' b :=
  fun row hrow hid => ⟨row, hrows hrow, hid, rfl, fun h => h⟩

theorem rowsFrom_of_written {orgId : OrgId} {id' : Uuid} {update : JobUpdate} {now : ℤ}
    (hrows : b'.rows = b.written orgId id' update now)
    (hu : id' = id → ∀ message, update ≠ .failed message true) : RowsFrom id b' b := by
  intro row' hrow' hid
  obtain ⟨row, hrow, heq, horg, rfl | ⟨-, hid', rfl⟩⟩ := mem_written (hrows ▸ hrow')
  · exact ⟨_, hrow, hid, rfl, fun h => h⟩
  · have hrid : row.id = id := heq ▸ hid
    exact ⟨row, hrow, hrid, horg.symm, JobUpdate.status_apply (hu (hid'.symm.trans hrid))⟩

theorem rowsFrom_of_append {row : JobRow} (hrows : b'.rows = b.rows ++ [row]) (hne : row.id ≠ id) :
    RowsFrom id b' b := by
  intro row' hrow' hid
  rcases List.mem_append.mp (hrows ▸ hrow') with hrow' | hrow'
  · exact ⟨row', hrow', hid, rfl, fun h => h⟩
  · rw [List.mem_singleton.mp hrow'] at hid
    exact absurd hid hne

theorem forall_enter {P : Pid → Phase → Prop} {phase : Phase} (hp : P p phase)
    (hq : ∀ q, q ≠ p → P q (b.phase q)) (q : Pid) : P q ((b.enter p phase).phase q) := by
  by_cases hqp : q = p
  · subst hqp
    simpa [enter] using hp
  · simpa [enter, hqp] using hq q hqp

theorem keeps_enter {phase : Phase} (hkeeps : phase.Keeps id (b.phase p)) (q : Pid) :
    (Function.update b.phase p phase q).Keeps id (b.phase q) := by
  by_cases hqp : q = p
  · subst hqp
    rw [Function.update_self]
    exact hkeeps
  · rw [Function.update_of_ne hqp]
    exact .refl id _

/-- A step that gives nobody anything more to do with the row keeps the invariant, as far as those
who reset the row are concerned. -/
theorem Exclusive.frame_reset {h' : List GatewayEvent} (hx : b.Exclusive id h)
    (hrows : RowsFrom id b' b) (hload : b'.load id ≤ b.load id)
    (hstake : ∀ q, (b'.phase q).Stake id → (b.phase q).Stake id)
    (howes : ∀ q, (b'.phase q).Owes id → (b.phase q).Owes id)
    (hreplays : ∀ q, (b'.phase q).Replays id → (b.phase q).Replays id)
    (hheld : ∀ q entry, (b'.phase q).held = some entry → entry.data.jobRecordId = id →
      entry ∈ b'.active)
    (hsince : ∀ q, (b'.phase q).Replays id → addedSince id h' q = false →
      addedSince id h q = false)
    (hreset : ∀ q row, b'.phase q = .requeued row → row.id = id → addedSince id h' q = false →
      ∀ row' ∈ b'.rows, row'.id = id → row'.status ≠ .deadLetter)
    (hdrawn : b.drawn ⊆ b'.drawn) : b'.Exclusive id h' where
  one := hload.trans hx.one
  held := hheld
  owed q ho := Nat.eq_zero_of_le_zero (hx.owed q (howes q ho) ▸ hload)
  alone q q' hs hs' := hx.alone q q' (hstake q hs) (hstake q' hs')
  dead row' hrow' hid hdead := by
    obtain ⟨row, hrow, hrid, -, hst⟩ := hrows row' hrow' hid
    obtain ⟨hzero, hnone⟩ := hx.dead row hrow hrid (hst hdead)
    exact ⟨Nat.eq_zero_of_le_zero (hzero ▸ hload), fun q hs => hnone q (hstake q hs)⟩
  replayed q hr hs := by
    obtain ⟨hzero, hnone⟩ := hx.replayed q (hreplays q hr) (hsince q hr hs)
    exact ⟨Nat.eq_zero_of_le_zero (hzero ▸ hload), fun q hs => hnone q (hstake q hs)⟩
  reset := hreset
  orgs row₁ hrow₁ row₂ hrow₂ hid₁ hid₂ := by
    obtain ⟨r₁, hr₁, hrid₁, horg₁, -⟩ := hrows row₁ hrow₁ hid₁
    obtain ⟨r₂, hr₂, hrid₂, horg₂, -⟩ := hrows row₂ hrow₂ hid₂
    exact horg₁.symm.trans ((hx.orgs r₁ hr₁ r₂ hr₂ hrid₁ hrid₂).trans horg₂)
  fresh hfresh := by
    obtain ⟨hnorow, hzero, hapart⟩ := hx.fresh fun hmem => hfresh (hdrawn hmem)
    refine ⟨fun row' hrow' hid => ?_, Nat.eq_zero_of_le_zero (hzero ▸ hload), fun q => ?_⟩
    · obtain ⟨row, hrow, hrid, -⟩ := hrows row' hrow' hid
      exact hnorow row hrow hrid
    · exact ⟨fun hs => (hapart q).1 (hstake q hs), fun hr => (hapart q).2 (hreplays q hr)⟩

theorem Exclusive.frame {h' : List GatewayEvent} (hx : b.Exclusive id h)
    (hrows : RowsFrom id b' b) (hload : b'.load id ≤ b.load id)
    (hphase : ∀ q, (b'.phase q).Keeps id (b.phase q))
    (hheld : ∀ q entry, (b'.phase q).held = some entry → entry.data.jobRecordId = id →
      entry ∈ b'.active)
    (hsince : ∀ q, (b'.phase q).Replays id → addedSince id h' q = false →
      addedSince id h q = false)
    (hdrawn : b.drawn ⊆ b'.drawn) : b'.Exclusive id h' := by
  refine hx.frame_reset hrows hload (fun q => (hphase q).stake) (fun q => (hphase q).owes)
    (fun q => (hphase q).replays) hheld hsince (fun q row hp hid hs row' hrow' hid' hdead => ?_)
    hdrawn
  obtain ⟨row₀, hrow₀, hrid, -, hst⟩ := hrows row' hrow' hid'
  have hr : (b'.phase q).Replays id := by
    rw [hp]
    exact hid
  exact hx.reset q row ((hphase q).requeued row hp hid) hid (hsince q hr hs) row₀ hrow₀ hrid
    (hst hdead)

/-- The frame of a step that leaves the entries where they are. -/
theorem Exclusive.frame_phase {h' : List GatewayEvent} (hx : b.Exclusive id h)
    (hrows : RowsFrom id b' b) (hqueue : b'.queue = b.queue) (hactive : b'.active = b.active)
    (hphase : ∀ q, (b'.phase q).Keeps id (b.phase q))
    (hsince : ∀ q, (b'.phase q).Replays id → addedSince id h' q = false →
      addedSince id h q = false)
    (hdrawn : b.drawn ⊆ b'.drawn) : b'.Exclusive id h' := by
  have hload : b'.load id = b.load id := by
    unfold load
    rw [hqueue, hactive]
  refine hx.frame hrows hload.le hphase (fun q entry he hid => ?_) hsince hdrawn
  rw [hactive]
  exact hx.held q entry ((hphase q).held entry he hid) hid

theorem rowsFrom_self : RowsFrom id b b := rowsFrom_of_subset fun _ h => h

theorem addedSince_cons {cmd : sig.Cmd} {r : sig.Ans cmd}
    (hread : ∀ orgId id, cmd ≠ .findJob orgId id)
    (hadd : ∀ data priority, cmd ≠ .queueAdd data priority)
    (q : Pid) : addedSince id (⟨p, cmd, r⟩ :: h) q = addedSince id h q := by
  cases cmd with
  | findJob orgId id => exact absurd rfl (hread orgId id)
  | queueAdd data priority => exact absurd rfl (hadd data priority)
  | _ => rfl

/-- Nobody has anything to do with a row that has no entry, except those who have read it. -/
theorem exclusive_of_unstaked (hload : b.load id = 0) (hnone : ∀ q, ¬(b.phase q).Stake id)
    (hreset : ∀ q row, b.phase q = .requeued row → row.id = id → addedSince id h q = false →
      ∀ row' ∈ b.rows, row'.id = id → row'.status ≠ .deadLetter)
    (horgs : ∀ row ∈ b.rows, ∀ row' ∈ b.rows, row.id = id → row'.id = id → row.orgId = row'.orgId)
    (hdrawn : id.text ∈ b.drawn) : b.Exclusive id h where
  one := hload.le.trans (Nat.zero_le 1)
  held q entry he hid := absurd (.inl ⟨entry, he, hid⟩) (hnone q)
  owed _ _ := hload
  alone q _ hs _ := absurd hs (hnone q)
  dead _ _ _ _ := ⟨hload, hnone⟩
  replayed _ _ _ := ⟨hload, hnone⟩
  reset := hreset
  orgs := horgs
  fresh hfresh := absurd hdrawn hfresh

/-! ## Counting entries -/

theorem count_pos {l : List QueueEntry} {entry : QueueEntry} (he : entry ∈ l)
    (hid : entry.data.jobRecordId = id) : 0 < l.countP fun e => e.data.jobRecordId = id :=
  List.countP_pos_iff.mpr ⟨entry, he, by simpa using hid⟩

/-- Taking an entry moves it. -/
theorem load_take {entry : QueueEntry} (he : entry ∈ b.queue) (phase : Pid → Phase) :
    load { b with
      queue := b.queue.erase entry, active := b.active ++ [entry], phase := phase } id =
        b.load id := by
  unfold load
  simp only [List.countP_append, List.countP_singleton, List.countP_erase, he, true_and]
  by_cases hid : entry.data.jobRecordId = id
  · have hpos := count_pos he hid
    simp only [hid, decide_true, if_true]
    omega
  · simp [hid]

/-- A failed entry goes back to the queue, or it was the last attempt. -/
theorem isLastAttempt_iff {entry : QueueEntry} :
    entry.isLastAttempt = true ↔ entry.retried = none := by
  simp only [QueueEntry.isLastAttempt, QueueEntry.retried, decide_eq_true_eq, ite_eq_right_iff,
    reduceCtorEq, imp_false, not_lt]

theorem count_retried (entry : QueueEntry) : (entry.retried.toList.countP fun e =>
    e.data.jobRecordId = id) ≤ if entry.data.jobRecordId = id then 1 else 0 := by
  cases hr : entry.retried with
  | none => exact Nat.zero_le _
  | some e =>
    have hdata := QueueEntry.data_retried hr
    simp [List.countP_singleton, hdata]

/-- A failure leaves no more entries than there were. -/
theorem load_fail {entry : QueueEntry}
    (he : entry.data.jobRecordId = id → entry ∈ b.active) (phase : Pid → Phase) :
    load { b with
      active := b.active.erase entry, queue := b.queue ++ entry.retried.toList
      phase := phase } id ≤ b.load id := by
  have hretried : (entry.retried.toList.countP fun e => e.data.jobRecordId = id) ≤
      if entry.data.jobRecordId = id then 1 else 0 := count_retried entry
  unfold load
  simp only [List.countP_append, List.countP_erase]
  by_cases hid : entry.data.jobRecordId = id
  · have hpos := count_pos (he hid) hid
    simp only [he hid, hid, decide_true, and_self, if_true] at hretried ⊢
    omega
  · simp only [hid, decide_false, if_false, Bool.false_eq_true, and_false] at hretried ⊢
    omega

/-- A last failure leaves none. -/
theorem load_fail_last {entry : QueueEntry} (he : entry ∈ b.active)
    (hid : entry.data.jobRecordId = id) (hone : b.load id ≤ 1)
    (hlast : entry.isLastAttempt = true) (phase : Pid → Phase) :
    load { b with
      active := b.active.erase entry, queue := b.queue ++ entry.retried.toList
      phase := phase } id = 0 := by
  have hpos := count_pos he hid
  unfold load at hone ⊢
  simp only [isLastAttempt_iff.mp hlast, Option.toList_none, List.append_nil, List.countP_erase, he,
    true_and, hid, decide_true, if_true]
  omega

theorem load_erase (entry : QueueEntry) (phase : Pid → Phase) :
    load { b with active := b.active.erase entry, phase := phase } id ≤ b.load id := by
  unfold load
  simp only [List.countP_erase]
  omega

/-! ## The moves of one row -/

section Moves

variable (hx : b.Exclusive id h)

include hx

theorem Exclusive.drawn_of_row {row : JobRow} (hrow : row ∈ b.rows) (hid : row.id = id) :
    id.text ∈ b.drawn := by
  by_contra hfresh
  exact (hx.fresh hfresh).1 row hrow hid

theorem Exclusive.drawn_of_stake (hs : (b.phase p).Stake id) : id.text ∈ b.drawn := by
  by_contra hfresh
  exact ((hx.fresh hfresh).2.2 p).1 hs

/-- A read of a dead row finds nobody at work. -/
theorem Exclusive.read {orgId : OrgId} {id' : Uuid} {r : sig.Ans (.findJob orgId id')}
    {found : Option JobRow} (hp : ∀ row, b.phase p ≠ .requeued row)
    (hrow : ∀ row, found = some row → row ∈ b.rows ∧ row.id = id') :
    (b.enter p ((b.phase p).reading found)).Exclusive id (⟨p, .findJob orgId id', r⟩ :: h) := by
  have hsince : ∀ q, q ≠ p → addedSince id (⟨p, .findJob orgId id', r⟩ :: h) q = false →
      addedSince id h q = false := by
    intro q hqp hs
    rwa [addedSince, if_neg (Ne.symm hqp)] at hs
  rcases Phase.reading_cases (b.phase p) found with ⟨hnot, hsame⟩ | hidle | ⟨row, hf, hdead, hread⟩
  · -- a process at work with a row does not have another one replayed
    have hnone : ¬(b.phase p).Replays id := by
      cases hphase : b.phase p with
      | replayable row => exact absurd hphase (hnot row)
      | requeued row => exact absurd hphase (hp row)
      | _ => exact fun h => h
    rw [hsame]
    exact hx.frame_phase rowsFrom_self rfl rfl (keeps_enter (.refl id _))
      (forall_enter (P := fun q phase => phase.Replays id → _) (fun hr => absurd hr hnone)
        fun q hqp _ => hsince q hqp) fun _ hd => hd
  · rw [hidle]
    exact hx.frame_phase rowsFrom_self rfl rfl (keeps_enter ((Phase.apart_idle id).keeps _))
      (forall_enter (P := fun q phase => phase.Replays id → _) (fun hr => nomatch hr)
        fun q hqp _ => hsince q hqp) fun _ hd => hd
  · rw [hread]
    obtain ⟨hmem, -⟩ := hrow row hf
    by_cases hid : row.id = id
    · obtain ⟨hzero, hnone⟩ := hx.dead row hmem hid hdead
      exact exclusive_of_unstaked hzero
        (forall_enter (P := fun _ phase => ¬phase.Stake id) (Phase.not_stake_replayable id row)
          fun q _ => hnone q)
        (forall_enter (P := fun q phase => ∀ row, phase = .requeued row → row.id = id → _)
          (fun _ heq => by cases heq)
          fun q hqp row' heq hid' hs => hx.reset q row' heq hid' (hsince q hqp hs)) hx.orgs
        (hx.drawn_of_row hmem hid)
    · exact hx.frame_phase rowsFrom_self rfl rfl
        (keeps_enter (Phase.Apart.keeps ⟨Phase.not_stake_replayable id row, hid⟩ _))
        (forall_enter (P := fun q phase => phase.Replays id → _) (fun hr => absurd hr hid)
          fun q hqp _ => hsince q hqp) fun _ hd => hd

theorem Exclusive.eq_of_fresh {row r : JobRow} (hfresh : id.text ∉ b.drawn)
    (hr : r ∈ b.rows ++ [row]) (hid : r.id = id) : r = row := by
  rcases List.mem_append.mp hr with hr | hr
  · exact absurd hid ((hx.fresh hfresh).1 r hr)
  · exact List.mem_singleton.mp hr

/-- A new row is its creator's alone. -/
theorem Exclusive.create {row : JobRow} {h' : List GatewayEvent} (hid : row.id = id)
    (hstatus : row.status = .queued) (hfresh : id.text ∉ b.drawn) :
    Exclusive { b.enter p (.created row.id) with
      rows := b.rows ++ [row], drawn := row.id.text :: b.drawn } id h' := by
  obtain ⟨hnorow, hzero, hapart⟩ := hx.fresh hfresh
  have halone : ∀ q, ((b.enter p (.created row.id)).phase q).Stake id → q = p := by
    refine forall_enter (P := fun q phase => phase.Stake id → q = p) (fun _ => rfl)
      fun q _ hs => absurd hs (hapart q).1
  have hreads : ∀ q, ¬((b.enter p (.created row.id)).phase q).Replays id :=
    forall_enter (P := fun _ phase => ¬phase.Replays id) (fun hr => hr) fun q _ => (hapart q).2
  refine ⟨hzero.le.trans (Nat.zero_le 1), ?_, fun _ _ => hzero, ?_, ?_, ?_, ?_, ?_, ?_⟩
  · refine forall_enter (P := fun _ phase => ∀ entry, phase.held = some entry →
      entry.data.jobRecordId = id → entry ∈ b.active) (fun _ he => by cases he) ?_
    exact fun q _ entry he heid => absurd (.inl ⟨entry, he, heid⟩) (hapart q).1
  · exact fun q q' hs hs' => (halone q hs).trans (halone q' hs').symm
  · intro r hr hrid hdead
    rw [hx.eq_of_fresh hfresh hr hrid, hstatus] at hdead
    cases hdead
  · exact fun q hr _ => absurd hr (hreads q)
  · intro q row' hq hid' _
    have hr : ((b.enter p (.created row.id)).phase q).Replays id := by
      rw [hq]
      exact hid'
    exact absurd hr (hreads q)
  · intro r hr r' hr' hrid hrid'
    rw [hx.eq_of_fresh hfresh hr hrid, hx.eq_of_fresh hfresh hr' hrid']
  · exact fun hnot => absurd (hid ▸ List.mem_cons_self) hnot

theorem Exclusive.createLost {row : JobRow} {h' : List GatewayEvent} (hid : row.id = id)
    (hfresh : id.text ∉ b.drawn) :
    Exclusive { b with rows := b.rows ++ [row], drawn := row.id.text :: b.drawn } id h' := by
  obtain ⟨hnorow, hzero, hapart⟩ := hx.fresh hfresh
  refine exclusive_of_unstaked hzero (fun q => (hapart q).1) (fun q row' hq hid' _ => ?_) ?_
    (hid ▸ List.mem_cons_self)
  · have hr : (b.phase q).Replays id := by
      rw [show b.phase q = .requeued row' from hq]
      exact hid'
    exact absurd hr (hapart q).2
  · intro r hr r' hr' hrid hrid'
    rw [hx.eq_of_fresh hfresh hr hrid, hx.eq_of_fresh hfresh hr' hrid']

/-- While a row has an entry nobody else has read it as dead. -/
theorem Exclusive.not_replays (hload : 0 < b.load id) {q : Pid} (hr : (b.phase q).Replays id) :
    addedSince id h q ≠ false :=
  fun hs => hload.ne' (hx.replayed q hr hs).1

/-- A waiting entry is all there is of its row. -/
theorem Exclusive.unstaked_of_queue {entry : QueueEntry} (he : entry ∈ b.queue)
    (hid : entry.data.jobRecordId = id) (q : Pid) : ¬(b.phase q).Stake id := by
  have hqueue := count_pos he hid
  rintro (⟨e, hheld, heid⟩ | ho)
  · have hactive := count_pos (hx.held q e hheld heid) heid
    have hone := hx.one
    unfold load at hone
    omega
  · have hzero := hx.owed q ho
    unfold load at hzero
    omega

/-- The entry of a process that owes the row one, or replays it alone. -/
theorem Exclusive.add {entry : QueueEntry} {h' : List GatewayEvent}
    (hid : entry.data.jobRecordId = id)
    (hp : b.phase p = .created id ∨ ∃ row, b.phase p = .requeued row ∧ row.id = id)
    (hapart : (b.phase p).isRequeued = true → addedSince id h p = false)
    (hadded : ∀ q, addedSince id h' q = true) :
    Exclusive { b.enter p .over with
      queue := b.queue ++ [entry], added := b.added + 1 } id h' := by
  have hbefore : b.load id = 0 ∧ (∀ q, q ≠ p → ¬(b.phase q).Stake id) ∧
      (∀ row ∈ b.rows, row.id = id → row.status ≠ .deadLetter) ∧ id.text ∈ b.drawn := by
    rcases hp with hp | ⟨row, hp, hrid⟩
    · have howes : (b.phase p).Owes id := by
        rw [hp]
        exact rfl
      refine ⟨hx.owed p howes, fun q hqp hs => hqp (hx.alone q p hs (.inr howes)), ?_,
        hx.drawn_of_stake (.inr howes)⟩
      exact fun row hrow hrid hdead => (hx.dead row hrow hrid hdead).2 p (.inr howes)
    · have hs : addedSince id h p = false := hapart (by rw [hp]; rfl)
      have hr : (b.phase p).Replays id := by
        rw [hp]
        exact hrid
      obtain ⟨hzero, hnone⟩ := hx.replayed p hr hs
      refine ⟨hzero, fun q _ => hnone q, hx.reset p row hp hrid hs, ?_⟩
      by_contra hfresh
      exact ((hx.fresh hfresh).2.2 p).2 hr
  obtain ⟨hzero, hothers, halive, hdrawn⟩ := hbefore
  have hnone : ∀ q, ¬((b.enter p .over).phase q).Stake id :=
    forall_enter (P := fun _ phase => ¬phase.Stake id) (Phase.apart_over id).1 hothers
  have hload : load { b.enter p .over with
      queue := b.queue ++ [entry], added := b.added + 1 } id = 1 := by
    unfold load at hzero ⊢
    simp only [enter, List.countP_append, List.countP_singleton, hid, decide_true, if_true]
    omega
  refine ⟨hload.le, fun q e he heid => absurd (.inl ⟨e, he, heid⟩) (hnone q),
    fun q ho => absurd (.inr ho) (hnone q), fun q _ hs _ => absurd hs (hnone q),
    fun row hrow hrid hdead => absurd hdead (halive row hrow hrid), fun q _ hs => ?_,
    fun q _ _ _ hs => ?_, hx.orgs, fun hnot => absurd hdrawn hnot⟩
  · rw [hadded q] at hs
    cases hs
  · rw [hadded q] at hs
    cases hs

/-- The entry of a row that waits is taken by the only worker of the row. -/
theorem Exclusive.take {entry : QueueEntry} {h' : List GatewayEvent} (he : entry ∈ b.queue)
    (hid : entry.data.jobRecordId = id) (hsince : ∀ q, addedSince id h' q = addedSince id h q) :
    Exclusive { b.enter p (.taken entry) with
      queue := b.queue.erase entry, active := b.active ++ [entry] } id h' := by
  have hnone := hx.unstaked_of_queue he hid
  have hload : load { b.enter p (.taken entry) with
      queue := b.queue.erase entry, active := b.active ++ [entry] } id = b.load id :=
    load_take he _
  have hpos : 0 < b.load id := Nat.add_pos_left (count_pos he hid) _
  have hreads : ∀ q, ((b.enter p (.taken entry)).phase q).Replays id → addedSince id h q ≠ false :=
    forall_enter (P := fun q phase => phase.Replays id → addedSince id h q ≠ false)
      (fun hr => nomatch hr) fun q _ hr => hx.not_replays hpos hr
  refine ⟨hload.le.trans hx.one, ?_, fun q ho => ?_, ?_, fun row hrow hrid hdead => ?_,
    fun q hr hs => absurd (hsince q ▸ hs) (hreads q hr), fun q row hq hrid hs => ?_, hx.orgs,
    fun hnot => absurd (hx.fresh hnot).2.1 hpos.ne'⟩
  · refine forall_enter (P := fun _ phase => ∀ e, phase.held = some e → e.data.jobRecordId = id →
      e ∈ b.active ++ [entry]) (fun e heq _ => ?_) fun q _ e hq heid =>
        absurd (.inl ⟨e, hq, heid⟩) (hnone q)
    cases heq
    exact List.mem_append_right _ (List.mem_singleton_self _)
  · revert q
    refine forall_enter (P := fun _ phase => phase.Owes id → _) (fun ho => nomatch ho)
      fun q _ ho => absurd (.inr ho) (hnone q)
  · have halone : ∀ q, ((b.enter p (.taken entry)).phase q).Stake id → q = p :=
      forall_enter (P := fun q phase => phase.Stake id → q = p) (fun _ => rfl)
        fun q _ hs => absurd hs (hnone q)
    exact fun q q' hs hs' => (halone q hs).trans (halone q' hs').symm
  · exact absurd (hx.dead row hrow hrid hdead).1 hpos.ne'
  · have hr : ((b.enter p (.taken entry)).phase q).Replays id := by
      rw [show (b.enter p (.taken entry)).phase q = .requeued row from hq]
      exact hrid
    exact absurd (hsince q ▸ hs) (hreads q hr)

/-- Nobody else works with the entry of a worker. -/
theorem Exclusive.held_erase {entry : QueueEntry} (hp : (b.phase p).held = some entry) {q : Pid}
    (hqp : q ≠ p) {e : QueueEntry} (hq : (b.phase q).held = some e)
    (hid : e.data.jobRecordId = id) : e ∈ b.active.erase entry := by
  by_cases heid : entry.data.jobRecordId = id
  · exact absurd (hx.alone q p (.inl ⟨e, hq, hid⟩) (.inl ⟨entry, hp, heid⟩)) hqp
  · refine (List.mem_erase_of_ne fun heq => ?_).mpr (hx.held q e hq hid)
    exact heid (heq ▸ hid)

/-- The last failure leaves a row without an entry, to be declared dead by the one who saw it. -/
theorem Exclusive.fail_last {entry : QueueEntry} {h' : List GatewayEvent}
    (hp : (b.phase p).held = some entry) (hid : entry.data.jobRecordId = id)
    (hlast : entry.isLastAttempt = true) (hsince : ∀ q, addedSince id h' q = addedSince id h q) :
    Exclusive { b.enter p (.failed entry) with
      active := b.active.erase entry, queue := b.queue ++ entry.retried.toList } id h' := by
  have hstake : (b.phase p).Stake id := .inl ⟨entry, hp, hid⟩
  have hmem := hx.held p entry hp hid
  have hpos : 0 < b.load id := Nat.add_pos_right _ (count_pos hmem hid)
  have hzero := load_fail_last hmem hid hx.one hlast (b.enter p (.failed entry)).phase
  have hreads : ∀ q, ((b.enter p (.failed entry)).phase q).Replays id → addedSince id h q ≠ false :=
    forall_enter (P := fun q phase => phase.Replays id → addedSince id h q ≠ false)
      (fun hr => nomatch hr) fun q _ hr => hx.not_replays hpos hr
  have halone : ∀ q, ((b.enter p (.failed entry)).phase q).Stake id → q = p :=
    forall_enter (P := fun q phase => phase.Stake id → q = p) (fun _ => rfl)
      fun q _ hs => hx.alone q p hs hstake
  refine ⟨hzero.le.trans (Nat.zero_le 1), ?_, fun _ _ => hzero,
    fun q q' hs hs' => (halone q hs).trans (halone q' hs').symm,
    fun row hrow hrid hdead => absurd (hx.dead row hrow hrid hdead).1 hpos.ne',
    fun q hr hs => absurd (hsince q ▸ hs) (hreads q hr), fun q row hq hrid hs => ?_, hx.orgs,
    fun hnot => absurd (hx.fresh hnot).2.1 hpos.ne'⟩
  · exact forall_enter (P := fun _ phase => ∀ e, phase.held = some e → e.data.jobRecordId = id →
      e ∈ b.active.erase entry) (fun _ heq => by cases heq) fun q hqp e hq heid =>
        hx.held_erase hp hqp hq heid
  · have hr : ((b.enter p (.failed entry)).phase q).Replays id := by
      rw [show (b.enter p (.failed entry)).phase q = .requeued row from hq]
      exact hrid
    exact absurd (hsince q ▸ hs) (hreads q hr)

/-- An entry that is given back, or taken away, leaves the row to nobody. -/
theorem Exclusive.give_back {entry : QueueEntry} {h' : List GatewayEvent} {phase : Phase}
    {queue : List QueueEntry} (hp : (b.phase p).held = some entry) (hapart : phase.Apart id)
    (hload : load { b.enter p phase with active := b.active.erase entry, queue := queue } id ≤
      b.load id)
    (hsince : ∀ q, addedSince id h' q = addedSince id h q) :
    Exclusive { b.enter p phase with active := b.active.erase entry, queue := queue } id h' := by
  refine hx.frame rowsFrom_self hload (keeps_enter (hapart.keeps _)) ?_
    (fun q _ hs => hsince q ▸ hs) fun _ hd => hd
  exact forall_enter (P := fun _ phase => ∀ e, phase.held = some e → e.data.jobRecordId = id →
    e ∈ b.active.erase entry) (fun e heq heid => absurd (.inl ⟨e, heq, heid⟩) hapart.1)
      fun q hqp e hq heid => hx.held_erase hp hqp hq heid

/-- A row is declared dead by the last one who has had to do with it. -/
theorem Exclusive.markFailed {entry : QueueEntry} {message : String} {now : ℤ}
    {h' : List GatewayEvent} (hp : b.phase p = .failed entry)
    (hsince : ∀ q, addedSince id h' q = addedSince id h q) :
    Exclusive { b.enter p .over with
      rows := b.written entry.data.orgId entry.data.jobRecordId
        (.failed message entry.isLastAttempt) now } id h' := by
  by_cases hlast : entry.data.jobRecordId = id ∧ entry.isLastAttempt = true
  · have howes : (b.phase p).Owes id := by
      rw [hp]
      exact ⟨hlast.2, hlast.1⟩
    have hnone : ∀ q, q ≠ p → ¬(b.phase q).Stake id :=
      fun q hqp hs => hqp (hx.alone q p hs (.inr howes))
    refine exclusive_of_unstaked (hx.owed p howes)
      (forall_enter (P := fun _ phase => ¬phase.Stake id) (Phase.apart_over id).1 hnone) ?_ ?_
      (hx.drawn_of_stake (.inr howes))
    · refine forall_enter (P := fun q phase => ∀ row, phase = .requeued row → row.id = id →
        addedSince id h' q = false → _) (fun _ heq => by cases heq) fun q _ row hq hid hs => ?_
      have hr : (b.phase q).Replays id := by
        rw [hq]
        exact hid
      exact absurd (.inr howes) ((hx.replayed q hr (hsince q ▸ hs)).2 p)
    · intro r hr r' hr' hid hid'
      obtain ⟨r₀, hr₀, heq, horg, -⟩ := mem_written hr
      obtain ⟨r₁, hr₁, heq', horg', -⟩ := mem_written hr'
      rw [horg, horg']
      exact hx.orgs r₀ hr₀ r₁ hr₁ (heq ▸ hid) (heq' ▸ hid')
  · refine hx.frame_phase (rowsFrom_of_written rfl fun hid m heq => hlast ⟨hid, ?_⟩) rfl rfl
      (keeps_enter ((Phase.apart_over id).keeps _)) (fun q _ hs => hsince q ▸ hs) fun _ hd => hd
    injection heq

/-- A replay resets the row that it has read as dead. -/
theorem Exclusive.requeue {row : JobRow} {now : ℤ} {h' : List GatewayEvent}
    (hp : b.phase p = .replayable row) (hrow : ∃ r ∈ b.rows, r.orgId = p.orgId ∧ r.id = row.id)
    (hsince : ∀ q, addedSince id h' q = addedSince id h q) :
    Exclusive { b.enter p (.requeued row) with
      rows := b.written p.orgId row.id .requeued now } id h' := by
  by_cases hid : row.id = id
  · refine hx.frame_reset (rowsFrom_of_written rfl fun _ _ heq => by cases heq) le_rfl ?_ ?_ ?_ ?_
      (fun q _ hs => hsince q ▸ hs) ?_ fun _ hd => hd
    · exact forall_enter (P := fun q phase => phase.Stake id → (b.phase q).Stake id)
        (fun hs => absurd hs (Phase.not_stake_requeued id row)) fun q _ hs => hs
    · exact forall_enter (P := fun q phase => phase.Owes id → (b.phase q).Owes id)
        (fun ho => nomatch ho) fun q _ ho => ho
    · refine forall_enter (P := fun q phase => phase.Replays id → (b.phase q).Replays id)
        (fun hr => ?_) fun q _ hr => hr
      rw [hp]
      exact hr
    · exact forall_enter (P := fun q phase => ∀ e, phase.held = some e → e.data.jobRecordId = id →
        e ∈ b.active) (fun _ heq => by cases heq) fun q _ => hx.held q
    · intro q row' _ _ _ r' hr' hrid' hdead
      obtain ⟨r, hr, horg, hrid⟩ := hrow
      obtain ⟨r₀, hr₀, rfl⟩ := List.mem_map.mp hr'
      split at hdead
      · cases hdead
      · rename_i hnot
        rw [if_neg hnot] at hrid'
        exact hnot ⟨(hx.orgs r₀ hr₀ r hr hrid' (hrid.trans hid)).trans horg, hrid'.trans hid.symm⟩
  · exact hx.frame_phase (rowsFrom_of_written rfl fun _ _ heq => by cases heq) rfl rfl
      (keeps_enter (Phase.Apart.keeps ⟨Phase.not_stake_requeued id row, hid⟩ _))
      (fun q _ hs => hsince q ▸ hs) fun _ hd => hd

/-- Every move keeps the invariant if replays are apart. -/
theorem Exclusive.move {e : Exchange sig} (hmove : b.Move p e b')
    (hapart : ∀ data priority r, e = ⟨.queueAdd data priority, r⟩ → data.jobRecordId = id →
      (b.phase p).isRequeued = true → addedSince id h p = false) :
    b'.Exclusive id (⟨p, e.1, e.2⟩ :: h) := by
  have hover : ∀ q, ((b.enter p .over).phase q).Keeps id (b.phase q) :=
    keeps_enter ((Phase.apart_over id).keeps _)
  cases hmove with
  | other cmd r drawn hd hread hadd hupdate =>
    exact hx.frame_phase rowsFrom_self rfl rfl (fun _ => .refl id _)
      (fun q _ hs => addedSince_cons hread hadd q ▸ hs) hd
  | read orgId id' r found hp hrow => exact hx.read hp hrow
  | create orgId apiKeyId payload priority row hp horg hstatus hfresh =>
    by_cases hid : row.id = id
    · subst hid
      exact hx.create rfl hstatus hfresh
    · have hapart : (Phase.created row.id).Apart id := ⟨Phase.not_stake rfl hid, fun hr => hr⟩
      exact hx.frame_phase (rowsFrom_of_append rfl hid) rfl rfl (keeps_enter (hapart.keeps _))
        (fun _ _ hs => hs) (List.subset_cons_self _ _)
  | createLost orgId apiKeyId payload priority row err hstatus hfresh =>
    by_cases hid : row.id = id
    · subst hid
      exact hx.createLost rfl hfresh
    · exact hx.frame_phase (rowsFrom_of_append rfl hid) rfl rfl (fun _ => .refl id _)
        (fun _ _ hs => hs) (List.subset_cons_self _ _)
  | add entry r hp horg hnumber =>
    by_cases hid : entry.data.jobRecordId = id
    · subst hid
      exact hx.add rfl hp (hapart _ _ _ rfl rfl) fun q => by simp [addedSince]
    · refine hx.frame rowsFrom_self ?_ hover (fun q e he heid => hx.held q e ?_ heid)
        (fun q _ hs => by simpa [addedSince, hid] using hs) (List.Subset.refl _)
      · unfold load
        simp [enter, hid]
      · exact (hover q).held e he heid
  | addLost data priority err hp =>
    refine hx.frame_phase rowsFrom_self rfl rfl hover (fun q _ hs => ?_) fun _ hd => hd
    simp only [addedSince, Bool.or_eq_false_iff] at hs
    exact hs.2
  | take entry hp hentry =>
    by_cases hid : entry.data.jobRecordId = id
    · exact hx.take hentry hid fun _ => rfl
    · have hkeep : ∀ q, ((b.enter p (.taken entry)).phase q).Keeps id (b.phase q) :=
        keeps_enter ((Phase.apart_of_held rfl hid).keeps _)
      exact hx.frame rowsFrom_self (load_take hentry _).le hkeep
        (fun q e he heid => List.mem_append_left _ (hx.held q e ((hkeep q).held e he heid) heid))
        (fun _ _ hs => hs) fun _ hd => hd
  | takeLost entry err hp hentry =>
    exact hx.frame rowsFrom_self (load_take hentry _).le (fun _ => .refl id _)
      (fun q e he heid => List.mem_append_left _ (hx.held q e he heid)) (fun _ _ hs => hs)
      fun _ hd => hd
  | work entry update now r hp hu =>
    refine hx.frame_phase (rowsFrom_of_written rfl fun _ m heq => ?_) rfl rfl (fun _ => .refl id _)
      (fun _ _ hs => hs) fun _ hd => hd
    rcases hu with ⟨n, rfl⟩ | ⟨n, rfl⟩ <;> cases heq
  | complete entry result now hp hrow =>
    exact hx.frame_phase (rowsFrom_of_written rfl fun _ _ heq => by cases heq) rfl rfl
      (keeps_enter (Phase.keeps_of_held rfl (congrArg Phase.held hp))) (fun _ _ hs => hs)
      fun _ hd => hd
  | completeLost entry result now err hp =>
    exact hx.frame_phase (rowsFrom_of_written rfl fun _ _ heq => by cases heq) rfl rfl
      (fun _ => .refl id _) (fun _ _ hs => hs) fun _ hd => hd
  | announce entry event hp hid hstatus =>
    exact hx.frame_phase rowsFrom_self rfl rfl
      (keeps_enter (Phase.keeps_of_held rfl (congrArg Phase.held hp))) (fun _ _ hs => hs)
      fun _ hd => hd
  | announceLost entry event err hp hid hstatus =>
    exact hx.frame_phase rowsFrom_self rfl rfl
      (keeps_enter (Phase.keeps_of_held rfl (congrArg Phase.held hp))) (fun _ _ hs => hs)
      fun _ hd => hd
  | finish entry r hp =>
    exact hx.give_back (congrArg Phase.held hp) (Phase.apart_over id) (load_erase entry _)
      fun _ => rfl
  | finishLost entry err hp =>
    exact hx.frame_phase rowsFrom_self rfl rfl hover (fun _ _ hs => hs) fun _ hd => hd
  | fail entry hp =>
    have hheld := Phase.held_of_working hp
    by_cases hlast : entry.isLastAttempt = true ∧ entry.data.jobRecordId = id
    · exact hx.fail_last hheld hlast.2 hlast.1 fun _ => rfl
    · exact hx.give_back hheld ⟨Phase.not_stake rfl hlast, fun hr => hr⟩
        (load_fail (hx.held p entry hheld) _) fun _ => rfl
  | failLost entry err hp =>
    have hheld := Phase.held_of_working hp
    exact hx.give_back hheld (Phase.apart_over id) (load_fail (hx.held p entry hheld) _)
      fun _ => rfl
  | failSkipped entry err hp =>
    exact hx.frame_phase rowsFrom_self rfl rfl hover (fun _ _ hs => hs) fun _ hd => hd
  | markFailed entry message now r hp => exact hx.markFailed hp fun _ => rfl
  | markFailedLost entry message err hp =>
    exact hx.frame_phase rowsFrom_self rfl rfl hover (fun _ _ hs => hs) fun _ hd => hd
  | requeue row now hp hrow => exact hx.requeue hp hrow fun _ => rfl
  | requeueLost row now err hp =>
    exact hx.frame_phase (rowsFrom_of_written rfl fun _ _ heq => by cases heq) rfl rfl hover
      (fun _ _ hs => hs) fun _ hd => hd
  | requeueSkipped row r hp =>
    exact hx.frame_phase rowsFrom_self rfl rfl hover (fun _ _ hs => hs) fun _ hd => hd
  | note orgId id' bullJobId now r hp =>
    exact hx.frame_phase (rowsFrom_of_written rfl fun _ _ heq => by cases heq) rfl rfl
      (fun _ => .refl id _) (fun _ _ hs => hs) fun _ hd => hd

end Moves

end Board

/-! ## Every run -/

theorem load_boardOf (c : GatewayConfig) (id : Uuid) :
    (boardOf c).load id = (c.world.shared.liveEntries id).length := by
  show _ + _ = _
  rw [Store.liveEntries, List.filter_append, List.length_append, ← List.countP_eq_length_filter,
    ← List.countP_eq_length_filter]
  rfl

theorem exclusive_init (organizations : OrgId → Option OrgRow) (billingPlans : String → Option ℚ)
    (id : Uuid) : (boardOf (.init (.fresh organizations billingPlans))).Exclusive id [] := by
  have hapart : ∀ p, ((boardOf (.init (.fresh organizations billingPlans))).phase p).Apart id :=
    fun _ => Phase.apart_idle id
  refine ⟨Nat.zero_le 1, fun p entry he => ?_, fun _ _ => rfl, fun p q hs => absurd hs (hapart p).1,
    fun _ hrow => ?_, fun p hr => absurd hr (hapart p).2, fun _ _ hp => ?_, fun _ hrow => ?_,
    fun _ => ⟨fun _ hrow => ?_, rfl, hapart⟩⟩
  · cases he
  · cases hrow
  · cases hp
  · cases hrow
  · cases hrow

/-- The invariant of one row over one step. -/
theorem exclusive_step {deps : Deps} {c d : GatewayConfig} {a : Action sig Pid Drift Op} {id : Uuid}
    (hconf : System.Conforms JobRule JobEnded c)
    (hx : (boardOf c).Exclusive id c.world.history)
    (hapart : ∀ p data priority r, a = .command ⟨p, .queueAdd data priority, r⟩ →
      data.jobRecordId = id → (phaseOf c p).isRequeued = true →
        addedSince id c.world.history p = false)
    (hstep : (gateway deps).Steps c a d) : (boardOf d).Exclusive id d.world.history := by
  rcases move_of_steps hconf hstep with ⟨hsame, hne⟩ | ⟨e, rfl, hmove⟩
  · rw [hsame]
    cases hstep with
    | start => exact hx
    | drift => exact hx
    | command => exact absurd rfl (hne _)
  · cases hstep with
    | @command p i P cmd k r s hp hk hexec =>
      refine hx.move hmove fun data priority r' heq hid hreq => ?_
      cases heq
      exact hapart p data priority r rfl hid hreq

/-- In a run in which every replay enqueues its job before anybody else has done so, every row has
at most one entry. -/
theorem liveOnce_of_replaysApart (deps : Deps) (organizations : OrgId → Option OrgRow)
    (billingPlans : String → Option ℚ) (ls : List GatewayLabel) (c : GatewayConfig)
    (hrun : (gateway deps).run (.init (.fresh organizations billingPlans)) ls = some c)
    (hal : (gateway deps).Along ReplaysApart (.init (.fresh organizations billingPlans)) ls) :
    LiveOnce c := by
  have hx : ∀ id, (boardOf c).Exclusive id c.world.history :=
    System.invariant_run (I := fun c => ∀ id, (boardOf c).Exclusive id c.world.history)
      (obeys_jobRule deps) (fun c a d hconf hi ha hstep id => exclusive_step hconf (hi id)
        (fun p data priority r heq hid hreq => by
          subst heq
          subst hid
          exact ha hreq) hstep) (System.conforms_init _)
      (exclusive_init organizations billingPlans) hrun hal
  intro id
  rw [← load_boardOf]
  exact (hx id).one

/-! ### A dead job and its replays -/

def jobA : Uuid := ⟨"00000000-0000-0000-0000-0000000000a1", by decide⟩

def bulkGreeting : CreateJobInput := ⟨tenantA, .bulkChat "gpt-4o-mini" ["hello"], none⟩

/-- One attempt at the job while the provider is down. -/
def failing : List Choice :=
  [.index 0, .nothing, .nothing, .nothing, .chat (.error (.error "fetch failed")), .nothing,
    .nothing, .nothing]

/-- The job is created, and its three attempts fail. -/
def exhausted : List GatewayLabel :=
  .start ⟨tenantA, 0⟩ (.createJob bulkGreeting) ::
    steps ⟨tenantA, 0⟩ [.nothing, .nothing, .nothing, .id jobA, .nothing, .nothing] ++
  .start ⟨tenantA, 1⟩ .processJob :: steps ⟨tenantA, 1⟩ failing ++
  .start ⟨tenantA, 2⟩ .processJob :: steps ⟨tenantA, 2⟩ failing ++
  .start ⟨tenantA, 3⟩ .processJob :: steps ⟨tenantA, 3⟩ failing

/-- The job is replayed. -/
def replayedOnce : List GatewayLabel :=
  exhausted ++ .start ⟨tenantA, 4⟩ (.replayJob jobA) ::
    steps ⟨tenantA, 4⟩ [.nothing, .nothing, .nothing, .nothing, .nothing]

theorem liveOnce_of_replaysApart_replayedOnce :
    ∃ c, (gateway plainDeps).run (.init (.fresh (fun _ => none) (fun _ => none))) replayedOnce =
      some c ∧ (c.world.shared.liveEntries jobA).length = 1 ∧ LiveOnce c := by
  have hres : ((gateway plainDeps).run (.init (.fresh (fun _ => none) (fun _ => none)))
      replayedOnce).map (fun c => (c.world.shared.liveEntries jobA).length) = some 1 := by
    decide
  obtain ⟨c, hrun, hc⟩ := Option.map_eq_some_iff.mp hres
  exact ⟨c, hrun, hc, liveOnce_of_replaysApart plainDeps _ _ _ c hrun (by decide)⟩

/-- Two replays read the row before either of them resets it. -/
def replayedTwice : List GatewayLabel :=
  exhausted ++ .start ⟨tenantA, 4⟩ (.replayJob jobA) :: .start ⟨tenantA, 5⟩ (.replayJob jobA) ::
    steps ⟨tenantA, 4⟩ [.nothing, .nothing] ++ steps ⟨tenantA, 5⟩ [.nothing, .nothing] ++
    steps ⟨tenantA, 4⟩ [.nothing, .nothing, .nothing] ++
    steps ⟨tenantA, 5⟩ [.nothing, .nothing, .nothing]

/-- Both have enqueued the job. -/
theorem liveOnce_fails :
    ∃ c, (gateway plainDeps).run (.init (.fresh (fun _ => none) (fun _ => none))) replayedTwice =
      some c ∧ ¬LiveOnce c := by
  have hres : ((gateway plainDeps).run (.init (.fresh (fun _ => none) (fun _ => none)))
      replayedTwice).map (fun c => (c.world.shared.liveEntries jobA).length) = some 2 := by
    decide
  obtain ⟨c, hrun, hc⟩ := Option.map_eq_some_iff.mp hres
  refine ⟨c, hrun, fun hlive => ?_⟩
  have hone := hlive jobA
  omega

end CloudMesh.Gateway
