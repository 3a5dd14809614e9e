import CloudMesh.Jobs.Billed

/-!
# Watching a job

`/ws/jobs/:id` reads the row of a job, sends what it has read and subscribes to the channel on which
the workers publish. Redis keeps nothing for those who are not subscribed: an end that is published
after the row has been read and before the subscription is told to nobody, and the client waits for
a message that never comes.

## Main definitions

- `watching` — the gateway with one WebSocket that attaches to a job
- `EndTold` — a watcher that has nothing left to handle has been told of the end
- `InTime` — the steps of the attach that do not miss it
-/

namespace CloudMesh.Gateway

open Concurrent

/-! ## `packages/jobs/src/progress.ts` -/

def jobProgressChannel (jobRecordId : Uuid) : String := "job:" ++ jobRecordId.text ++ ":progress"

theorem jobProgressChannel_injective : Function.Injective jobProgressChannel := by
  intro a b h
  unfold jobProgressChannel at h
  rw [String.append_assoc, String.append_assoc] at h
  exact (Uuid.text_append_inj (append_right_inj h)).1

/-! ## `modules/jobs/wsRoutes.ts` -/

/-- The statuses on which the server closes the socket. -/
def JobStatus.isTerminal : JobStatus → Bool
  | .completed | .deadLetter => true
  | .queued | .running | .failed => false

/-- How far the route has come for a client with a valid key. -/
inductive Attach
  | connected
  /-- The row has been read, and nothing has been sent. -/
  | loaded (row : JobRow)
  /-- The snapshot has been sent, and the channel is not subscribed to yet. -/
  | subscribing
  | subscribed
  /-- The server has closed the socket after the end of the job. -/
  | closed
  /-- It has closed it because the org has no such job. -/
  | notFound
  deriving DecidableEq

/-- What is published on the channel of a job is one connection's business as long as its socket is
open; `published` holds it, from the last replay on. -/
structure Watched where
  store : Store
  attach : Attach
  /-- The messages that Redis has delivered and the handler has not seen. -/
  inbox : List JobProgressEvent
  sent : List JobProgressEvent
  published : List JobProgressEvent

/-- The state of the job as it is sent on attaching. -/
def snapshot (row : JobRow) : JobProgressEvent := ⟨row.id, row.progress, row.status, row.error⟩

namespace Watched

variable (w : Watched)

/-- `socket.send`, and `socket.close` if the job has ended. -/
def send (event : JobProgressEvent) (next : Attach) : Watched :=
  { w with
    sent := w.sent ++ [event]
    attach := if event.status.isTerminal then .closed else next }

/-- A command on the job's channel or row has been executed. -/
def after (orgId : OrgId) (id : Uuid) : Cmd → Watched
  | .publishJobProgress event =>
    if jobProgressChannel event.jobId = jobProgressChannel id ∧ w.attach ≠ .closed then
      { w with
        published := w.published ++ [event]
        -- Redis delivers to those who are subscribed at this moment
        inbox := if w.attach = .subscribed then w.inbox ++ [event] else w.inbox }
    else w
  | .updateJob org jobId .requeued =>
    -- a replay begins the job anew, except for a watcher who is still to be told of its end
    if org = orgId ∧ jobId = id ∧ (w.store.updateJob org jobId .requeued).1 = true ∧
        w.attach ≠ .subscribed ∧ w.attach ≠ .closed then
      { w with published := [] }
    else w
  | _ => w

end Watched

/-- The command has been executed, whatever its answer says. -/
def Input.executed (i : Input) : Bool :=
  match i.fault with
  | none => true
  | some (_, applied) => applied

/-- The steps of the route, beside what changes by itself. -/
inductive WatchDrift
  | other (e : JobDrift)
  | read
  | snapshot
  | subscribe
  | message

def watchDrift (orgId : OrgId) (id : Uuid) : WatchDrift → Watched → Option Watched
  | .other e, w => (jobDrift e w.store).map fun s => { w with store := s }
  | .read, w =>
    match w.attach with
    | .connected =>
      match (w.store.jobsOf orgId).find? fun row => row.id = id with
      | none => some { w with attach := .notFound }
      | some row => some { w with attach := .loaded row }
    | _ => none
  | .snapshot, w =>
    match w.attach with
    | .loaded row => some (w.send (snapshot row) .subscribing)
    | _ => none
  | .subscribe, w =>
    match w.attach with
    | .subscribing => some { w with attach := .subscribed }
    | _ => none
  | .message, w =>
    match w.attach, w.inbox with
    | .subscribed, event :: rest => some ({ w with inbox := rest }.send event .subscribed)
    | _, _ => none

def watching (deps : Deps) (orgId : OrgId) (id : Uuid) :
    System sig Pid Watched Input WatchDrift Op Outcome where
  exec p c i w := (exec deps.similarity p c i w.store).map fun (r, s) =>
    (r, { (if i.executed then w.after orgId id c else w) with store := s })
  drift := watchDrift orgId id
  code p op := (handler deps p.orgId op).run

abbrev WatchConfig := Config sig Pid Watched Op Outcome

/-- A client connects to a gateway in which nothing has happened yet. -/
def Watched.fresh (organizations : OrgId → Option OrgRow) (billingPlans : String → Option ℚ) :
    Watched :=
  ⟨.fresh organizations billingPlans, .connected, [], [], []⟩

/-! ### What a step of the route does -/

section Steps

variable {orgId : OrgId} {id : Uuid} {w w' : Watched}

theorem watchDrift_other {e : JobDrift} (h : watchDrift orgId id (.other e) w = some w') :
    ∃ s, w' = { w with store := s } := by
  obtain ⟨s, -, rfl⟩ := Option.map_eq_some_iff.mp h
  exact ⟨s, rfl⟩

theorem watchDrift_read (h : watchDrift orgId id .read w = some w') : w.attach = .connected ∧
    (w' = { w with attach := .notFound } ∨ ∃ row, w' = { w with attach := .loaded row }) := by
  simp only [watchDrift] at h
  split at h
  · rename_i hattach
    split at h
    · exact ⟨hattach, .inl (Option.some.inj h).symm⟩
    · exact ⟨hattach, .inr ⟨_, (Option.some.inj h).symm⟩⟩
  · cases h

theorem watchDrift_snapshot (h : watchDrift orgId id .snapshot w = some w') :
    ∃ row, w.attach = .loaded row ∧ w' = w.send (snapshot row) .subscribing := by
  simp only [watchDrift] at h
  split at h
  · rename_i row hattach
    exact ⟨row, hattach, (Option.some.inj h).symm⟩
  · cases h

theorem watchDrift_subscribe (h : watchDrift orgId id .subscribe w = some w') :
    w.attach = .subscribing ∧ w' = { w with attach := .subscribed } := by
  simp only [watchDrift] at h
  split at h
  · rename_i hattach
    exact ⟨hattach, (Option.some.inj h).symm⟩
  · cases h

theorem watchDrift_message (h : watchDrift orgId id .message w = some w') :
    ∃ event rest, w.attach = .subscribed ∧ w.inbox = event :: rest ∧
      w' = { w with inbox := rest }.send event .subscribed := by
  simp only [watchDrift] at h
  split at h
  · rename_i event rest hattach hinbox
    exact ⟨event, rest, hattach, hinbox, (Option.some.inj h).symm⟩
  · cases h

end Steps

/-! ## What is to hold -/

/-- The job has ended with the status, the only terminal one among the messages. -/
structure EndedAs (st : JobStatus) (published : List JobProgressEvent) : Prop where
  terminal : st.isTerminal = true
  mem : ∃ event ∈ published, event.status = st
  only : ∀ event ∈ published, event.status.isTerminal = true → event.status = st

namespace Watched

variable (w : Watched)

/-- The attach has been made, and every message has been handled. -/
def Settled : Prop := w.attach = .closed ∨ w.attach = .subscribed ∧ w.inbox = []

/-- The status has been sent, and the server has closed the socket. -/
def Told (st : JobStatus) : Prop := w.attach = .closed ∧ ∃ event ∈ w.sent, event.status = st

/-- Who has nothing left to wait for knows how the job has ended. -/
def EndTold : Prop := ∀ st, EndedAs st w.published → w.Settled → w.Told st

end Watched

/-- No end has been published when the channel is subscribed to, and a terminal status in the
snapshot is the one that has been published, if one has. -/
def InTime (c : WatchConfig) : Action sig Pid WatchDrift Op → Prop
  | .drift .snapshot => ∀ row st, c.world.shared.attach = .loaded row →
      row.status.isTerminal = true → EndedAs st c.world.shared.published → row.status = st
  | .drift .subscribe => ∀ st, ¬EndedAs st c.world.shared.published
  | _ => True

/-! ## Messages -/

section Messages

variable {st : JobStatus} {published : List JobProgressEvent} {event : JobProgressEvent}

/-- The last message is the end, or the job had ended before it. -/
theorem EndedAs.of_append (h : EndedAs st (published ++ [event])) :
    (∀ e ∈ published, e.status.isTerminal = false) ∨ EndedAs st published := by
  by_cases hold : ∃ e ∈ published, e.status.isTerminal = true
  · obtain ⟨e, he, hterm⟩ := hold
    exact .inr ⟨h.terminal, ⟨e, he, h.only e (List.mem_append_left _ he) hterm⟩,
      fun e he => h.only e (List.mem_append_left _ he)⟩
  · exact .inl fun e he => Bool.eq_false_iff.mpr fun hterm => hold ⟨e, he, hterm⟩

end Messages

/-! ## What a watcher has not been told of, it is still to be told of -/

namespace Watched

def Sound (w : Watched) : Prop :=
  match w.attach with
  | .connected | .loaded _ => w.inbox = [] ∧ w.sent = []
  | .subscribing => w.inbox = []
  | .subscribed => (∀ event ∈ w.inbox, event ∈ w.published) ∧
      ∀ st, EndedAs st w.published → ∀ event ∈ w.published, event.status.isTerminal = true →
        event ∈ w.inbox
  | .closed => ∀ st, EndedAs st w.published → ∃ event ∈ w.sent, event.status = st
  | .notFound => True

variable {w w' : Watched} {orgId : OrgId} {id : Uuid}

theorem Sound.endTold (h : w.Sound) : w.EndTold := by
  rintro st hend (hclosed | ⟨hsub, hempty⟩)
  · unfold Sound at h
    rw [hclosed] at h
    exact ⟨hclosed, h st hend⟩
  · unfold Sound at h
    rw [hsub] at h
    obtain ⟨event, hmem, rfl⟩ := hend.mem
    have hin := h.2 _ hend event hmem hend.terminal
    rw [hempty] at hin
    cases hin

theorem Sound.store (h : w.Sound) (s : Store) : Sound { w with store := s } := h

/-- A message for a watcher who is subscribed waits to be handled. -/
theorem Sound.receive (h : w.Sound) (hsub : w.attach = .subscribed) (event : JobProgressEvent) :
    Sound { w with published := w.published ++ [event], inbox := w.inbox ++ [event] } := by
  unfold Sound at h ⊢
  rw [hsub] at h
  simp only [hsub]
  refine ⟨fun e he => ?_, fun st hend e he hterm => ?_⟩
  · exact List.mem_append.mpr ((List.mem_append.mp he).imp (h.1 e) fun he => he)
  · rcases List.mem_append.mp he with hold | hnew
    · rcases hend.of_append with hnone | hbefore
      · exact absurd hterm (Bool.eq_false_iff.mp (hnone e hold))
      · exact List.mem_append_left _ (h.2 st hbefore e hold hterm)
    · exact List.mem_append_right _ hnew

/-- Nobody is listening yet. -/
theorem Sound.unheard (h : w.Sound) (hsub : w.attach ≠ .subscribed) (hopen : w.attach ≠ .closed)
    (published : List JobProgressEvent) : Sound { w with published := published } := by
  unfold Sound at h ⊢
  cases hattach : w.attach with
  | subscribed => exact absurd hattach hsub
  | closed => exact absurd hattach hopen
  | notFound => trivial
  | connected | loaded | subscribing =>
    rw [hattach] at h
    exact h

theorem Sound.after (h : w.Sound) (c : Cmd) : (w.after orgId id c).Sound := by
  cases c with
  | publishJobProgress event =>
    simp only [Watched.after]
    split
    · rename_i hopen
      by_cases hsub : w.attach = .subscribed
      · rw [if_pos hsub]
        exact h.receive hsub event
      · rw [if_neg hsub]
        exact h.unheard hsub hopen.2 _
    · exact h
  | updateJob org jobId update =>
    cases update with
    | requeued =>
      simp only [Watched.after]
      split
      · rename_i hreset
        exact h.unheard hreset.2.2.2.1 hreset.2.2.2.2 _
      · exact h
    | _ => exact h
  | _ => exact h

/-! ### The steps of the route -/

theorem Sound.snapshot {row : JobRow} (h : w.Sound) (hattach : w.attach = .loaded row)
    (hin : row.status.isTerminal = true → ∀ st, EndedAs st w.published → row.status = st) :
    (w.send (Gateway.snapshot row) .subscribing).Sound := by
  unfold Sound at h
  rw [hattach] at h
  unfold Sound send
  cases hterm : row.status.isTerminal with
  | true =>
    simp only [Gateway.snapshot, hterm, if_true]
    exact fun st hend => ⟨_, List.mem_append_right _ (List.mem_singleton_self _), hin hterm st hend⟩
  | false =>
    simp only [Gateway.snapshot, hterm]
    exact h.1

theorem Sound.subscribe (h : w.Sound) (hattach : w.attach = .subscribing)
    (hin : ∀ st, ¬EndedAs st w.published) : Sound { w with attach := .subscribed } := by
  unfold Sound at h
  rw [hattach] at h
  refine ⟨fun event he => ?_, fun st hend => absurd hend (hin st)⟩
  rw [show w.inbox = [] from h] at he
  cases he

theorem Sound.message {event : JobProgressEvent} {rest : List JobProgressEvent} (h : w.Sound)
    (hattach : w.attach = .subscribed) (hinbox : w.inbox = event :: rest) :
    ({ w with inbox := rest }.send event .subscribed).Sound := by
  unfold Sound at h
  rw [hattach, hinbox] at h
  obtain ⟨hpublished, hpending⟩ := h
  unfold Sound send
  cases hterm : event.status.isTerminal with
  | true =>
    -- the handler closes the socket
    simp only [if_true]
    intro st hend
    exact ⟨event, List.mem_append_right _ (List.mem_singleton_self _),
      hend.only event (hpublished event List.mem_cons_self) hterm⟩
  | false =>
    simp only [Bool.false_eq_true, if_false]
    refine ⟨fun e he => hpublished e (List.mem_cons_of_mem _ he), fun st hend e he heterm => ?_⟩
    rcases List.mem_cons.mp (hpending st hend e he heterm) with rfl | hrest
    · cases hterm.symm.trans heterm
    · exact hrest

end Watched

/-! ## Every run -/

section Runs

variable {deps : Deps} {orgId : OrgId} {id : Uuid} {c d : WatchConfig}
  {a : Action sig Pid WatchDrift Op}

/-- A step that is in time leaves nothing untold. -/
theorem sound_step (h : c.world.shared.Sound) (hin : InTime c a)
    (hstep : (watching deps orgId id).Steps c a d) : d.world.shared.Sound := by
  cases hstep with
  | start => exact h
  | @command p i P cmd k r w hp hk hx =>
    obtain ⟨⟨r', s⟩, -, heq⟩ := Option.map_eq_some_iff.mp hx
    cases heq
    refine Watched.Sound.store ?_ s
    split
    · exact h.after cmd
    · exact h
  | @drift e w hx =>
    change watchDrift orgId id e c.world.shared = some w at hx
    cases e with
    | other e =>
      obtain ⟨s, rfl⟩ := watchDrift_other hx
      exact h.store s
    | read =>
      obtain ⟨hattach, rfl | ⟨row, rfl⟩⟩ := watchDrift_read hx
      · trivial
      · unfold Watched.Sound at h
        rw [hattach] at h
        exact h
    | snapshot =>
      obtain ⟨row, hattach, rfl⟩ := watchDrift_snapshot hx
      exact h.snapshot hattach fun hterm st => hin row st hattach hterm
    | subscribe =>
      obtain ⟨hattach, rfl⟩ := watchDrift_subscribe hx
      exact h.subscribe hattach hin
    | message =>
      obtain ⟨event, rest, hattach, hinbox, rfl⟩ := watchDrift_message hx
      exact h.message hattach hinbox

/-- A step that is not in time leaves a watcher who waits for what has been, or one who has been
told of another end. -/
theorem inTime_of_endTold (h : c.world.shared.Sound)
    (hstep : (watching deps orgId id).Steps c a d) (htold : d.world.shared.EndTold) :
    InTime c a := by
  cases hstep with
  | start | command => trivial
  | @drift e w hx =>
    change watchDrift orgId id e c.world.shared = some w at hx
    cases e with
    | other | read | message => trivial
    | snapshot =>
      obtain ⟨row, hattach, rfl⟩ := watchDrift_snapshot hx
      intro row' st hattach' hterm hend
      obtain rfl := Attach.loaded.inj (hattach.symm.trans hattach')
      have hclosed : (c.world.shared.send (snapshot row) .subscribing).attach = .closed :=
        if_pos hterm
      obtain ⟨-, event, hmem, hst⟩ := htold st hend (.inl hclosed)
      unfold Watched.Sound at h
      rw [hattach] at h
      have hsent : event ∈ [snapshot row] := by
        simpa only [Watched.send, h.2, List.nil_append] using hmem
      rw [List.mem_singleton.mp hsent] at hst
      exact hst
    | subscribe =>
      obtain ⟨hattach, rfl⟩ := watchDrift_subscribe hx
      intro st hend
      unfold Watched.Sound at h
      rw [hattach] at h
      obtain ⟨hclosed, -⟩ := htold st hend (.inr ⟨rfl, h⟩)
      cases hclosed

/-- In a run, every state in which the watcher has nothing left to wait for finds it told of the end
of the job exactly if every step of its attach is in time. -/
theorem endTold_iff_of_sound (h : c.world.shared.Sound)
    (ls : List (Label Pid Input WatchDrift Op)) :
    (watching deps orgId id).Through (fun _ _ d => d.world.shared.EndTold) c ls ↔
      (watching deps orgId id).Along InTime c ls := by
  induction ls generalizing c with
  | nil => exact Iff.rfl
  | cons l ls ih =>
    constructor
    · intro hall a d hnext
      obtain ⟨htold, hrest⟩ := hall a d hnext
      have hstep := System.steps_of_next hnext
      have hin := inTime_of_endTold h hstep htold
      exact ⟨hin, (ih (sound_step h hin hstep)).mp hrest⟩
    · intro hall a d hnext
      obtain ⟨hin, hrest⟩ := hall a d hnext
      have hsound := sound_step h hin (System.steps_of_next hnext)
      exact ⟨hsound.endTold, (ih hsound).mpr hrest⟩

end Runs

/-- The job is completed when the snapshot of its running attempt has been sent, and the route
subscribes after that. -/
def missed : List (Label Pid Input WatchDrift Op) :=
  .start ⟨tenantA, 0⟩ (.createJob bulkGreeting) ::
    going ⟨tenantA, 0⟩ [.nothing, .nothing, .nothing, .id jobA, .nothing, .nothing] ++
  .start ⟨tenantA, 1⟩ .processJob ::
    going ⟨tenantA, 1⟩ [.index 0, .nothing, .nothing, .nothing, .chat (.ok (greeted "chatcmpl-1")),
      .nothing, .nothing, .nothing] ++
  [.drift .read, .drift .snapshot] ++ going ⟨tenantA, 1⟩ [.nothing, .nothing] ++
  [.drift .subscribe]

end CloudMesh.Gateway
