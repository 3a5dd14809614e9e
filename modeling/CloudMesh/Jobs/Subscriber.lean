import CloudMesh.Concurrent.Machine
import CloudMesh.Jobs.Watch
import CloudMesh.Text

/-!
# The subscriber of a WebSocket

`/ws/jobs/:id` gives every client a Redis connection of its own, which the events of the socket are
to tear down. They are listened to only after the subscription has been confirmed, so an end of the
socket before that is missed, and a subscription that fails leaves the connection behind.

## Main definitions

- `socketRoute` — one run of the handler, up to its next `await` at each step
- `NoLeak` — no connection is left behind
- `ListensInTime` — the steps that leave none behind
-/

namespace CloudMesh.Gateway

open Concurrent

/-- What the server sends. -/
inductive Frame
  | snapshot (event : JobProgressEvent)
  | message (text : String)
  | close (code : ℕ) (reason : String)
  deriving DecidableEq

/-- What the handler waits for. -/
inductive SocketStage
  | resolving
  | loading (orgId : OrgId)
  | subscribing
  | returned
  | threw
  deriving DecidableEq

/-- `duplicated` is that the subscriber exists, `quits` counts its `quit()`s, and `closed` is that
the socket has emitted `close`. -/
structure SocketRun where
  stage : SocketStage
  closed : Bool
  listening : Bool
  duplicated : Bool
  quits : ℕ
  frames : List Frame
  deriving DecidableEq

namespace SocketRun

/-- The key of the header, or of the query. -/
def rawKey (authorization apiKey : Option String) : Option String :=
  match authorization with
  | some header =>
    if startsWith header "Bearer " then
      some (String.ofList (trim (header.toList.drop "Bearer ".length)))
    else apiKey
  | none => apiKey

def close (s : SocketRun) (code : ℕ) (reason : String) : SocketRun :=
  { s with frames := s.frames ++ [.close code reason] }

/-- The run up to the first `await`. -/
def start (authorization apiKey : Option String) : SocketRun :=
  let s : SocketRun := ⟨.resolving, false, false, false, 0, []⟩
  match rawKey authorization apiKey with
  | some key => if key = "" then { s with stage := .returned }.close 4401 "Unauthorized" else s
  | none => { s with stage := .returned }.close 4401 "Unauthorized"

/-- The snapshot, and the subscription to a job that has not ended. -/
def attach (s : SocketRun) (job : JobRow) : SocketRun :=
  let s := { s with frames := s.frames ++ [Frame.snapshot (Gateway.snapshot job)] }
  if job.status.isTerminal then { s with stage := .returned }.close 1000 "Job already finished"
  else { s with duplicated := true, stage := .subscribing }

/-- The listeners of `close` and `error`. -/
def tearDown (s : SocketRun) : SocketRun :=
  if s.listening then { s with quits := s.quits + 1 } else s

/-- The listener of messages; `status` is the `status` of the text, if it is the JSON of an
object. -/
def forward (s : SocketRun) (text : String) (status : Option String) : SocketRun :=
  let s := { s with frames := s.frames ++ [.message text] }
  if status = some "COMPLETED" ∨ status = some "DEAD_LETTER" then s.close 1000 "Job finished"
  else s

end SocketRun

/-- Answers to the handler, messages of the subscriber, and events of the socket. -/
inductive SocketLabel
  | resolved (orgId : Option OrgId)
  | loaded (job : Except String (Option JobRow))
  | subscribed (answer : Except String Unit)
  | message (text : String) (status : Option String)
  | close
  | error

def socketRoute : Machine SocketRun SocketLabel where
  step s
    | .resolved orgId =>
      match s.stage, orgId with
      | .resolving, some orgId => some { s with stage := .loading orgId }
      | .resolving, none => some ({ s with stage := .returned }.close 4401 "Unauthorized")
      | _, _ => none
    | .loaded job =>
      match s.stage, job with
      | .loading _, .ok (some job) => some (s.attach job)
      | .loading _, .ok none => some ({ s with stage := .returned }.close 4404 "Job not found")
      | .loading _, .error _ => some { s with stage := .threw }
      | _, _ => none
    | .subscribed answer =>
      match s.stage, answer with
      | .subscribing, .ok () => some { s with listening := true, stage := .returned }
      | .subscribing, .error _ => some { s with stage := .threw }
      | _, _ => none
    | .message text status =>
      if s.duplicated ∧ s.stage = .returned then some (s.forward text status) else none
    | .close => if s.closed then none else some { s.tearDown with closed := true }
    | .error => if s.closed then none else some s.tearDown

/-- When the handler has ended and it has thrown or the socket is closed, the subscriber, if there
is one, has been told to quit. -/
def NoLeak (s : SocketRun) : Prop :=
  s.stage = .returned ∧ s.closed = true ∨ s.stage = .threw → s.duplicated = true → 0 < s.quits

/-- The subscription succeeds, on a socket that is not closed. -/
def ListensInTime (s : SocketRun) : SocketLabel → Prop
  | .subscribed (.ok ()) => s.closed = false
  | .subscribed (.error _) => False
  | _ => True

/-- Where the handler can be. -/
structure SocketInv (s : SocketRun) : Prop where
  early : s.stage = .resolving ∨ (∃ orgId, s.stage = .loading orgId) →
    s.duplicated = false ∧ s.listening = false ∧ s.quits = 0
  subscribing : s.stage = .subscribing →
    s.duplicated = true ∧ s.listening = false ∧ s.quits = 0
  returned : s.stage = .returned → s.duplicated = true → s.listening = true

variable {s t : SocketRun} {l : SocketLabel} {ls : List SocketLabel}

/-- Everything that a label can do. -/
inductive SocketMoves (s : SocketRun) : SocketLabel → SocketRun → Prop
  | resolved (orgId : OrgId) (h : s.stage = .resolving) :
      SocketMoves s (.resolved (some orgId)) { s with stage := .loading orgId }
  | refused (h : s.stage = .resolving) :
      SocketMoves s (.resolved none) ({ s with stage := .returned }.close 4401 "Unauthorized")
  | loaded (orgId : OrgId) (job : JobRow) (h : s.stage = .loading orgId) :
      SocketMoves s (.loaded (.ok (some job))) (s.attach job)
  | missing (orgId : OrgId) (h : s.stage = .loading orgId) :
      SocketMoves s (.loaded (.ok none))
        ({ s with stage := .returned }.close 4404 "Job not found")
  | unread (orgId : OrgId) (message : String) (h : s.stage = .loading orgId) :
      SocketMoves s (.loaded (.error message)) { s with stage := .threw }
  | subscribed (h : s.stage = .subscribing) :
      SocketMoves s (.subscribed (.ok ())) { s with listening := true, stage := .returned }
  | unsubscribed (message : String) (h : s.stage = .subscribing) :
      SocketMoves s (.subscribed (.error message)) { s with stage := .threw }
  | message (text : String) (status : Option String)
      (h : s.duplicated = true ∧ s.stage = .returned) :
      SocketMoves s (.message text status) (s.forward text status)
  | close (h : s.closed = false) : SocketMoves s .close { s.tearDown with closed := true }
  | error (h : s.closed = false) : SocketMoves s .error s.tearDown

theorem socketMoves_of_step (h : socketRoute.step s l = some t) : SocketMoves s l t := by
  cases l with
  | resolved orgId =>
    cases hstage : s.stage <;> cases orgId <;> simp only [socketRoute, hstage] at h <;> cases h
    · exact .refused hstage
    · exact .resolved _ hstage
  | loaded job =>
    obtain _ | _ | job := job <;> cases hstage : s.stage <;>
      simp only [socketRoute, hstage] at h <;> cases h
    · exact .unread _ _ hstage
    · exact .missing _ hstage
    · exact .loaded _ job hstage
  | subscribed answer =>
    cases answer <;> cases hstage : s.stage <;> simp only [socketRoute, hstage] at h <;> cases h
    · exact .unsubscribed _ hstage
    · exact .subscribed hstage
  | message text status =>
    simp only [socketRoute, Option.ite_none_right_eq_some] at h
    obtain ⟨hopen, h⟩ := h
    cases h
    exact .message text status hopen
  | close =>
    simp only [socketRoute, Option.ite_none_left_eq_some, Bool.not_eq_true] at h
    obtain ⟨hopen, h⟩ := h
    cases h
    exact .close hopen
  | error =>
    simp only [socketRoute, Option.ite_none_left_eq_some, Bool.not_eq_true] at h
    obtain ⟨hopen, h⟩ := h
    cases h
    exact .error hopen

theorem socketInv_start (authorization apiKey : Option String) :
    SocketInv (.start authorization apiKey) := by
  unfold SocketRun.start
  dsimp only
  split
  · split
    · exact ⟨by simp [SocketRun.close], by simp [SocketRun.close], by simp [SocketRun.close]⟩
    · exact ⟨by simp, by simp, by simp⟩
  · exact ⟨by simp [SocketRun.close], by simp [SocketRun.close], by simp [SocketRun.close]⟩

@[simp] theorem tearDown_stage (s : SocketRun) : s.tearDown.stage = s.stage := by
  unfold SocketRun.tearDown
  split <;> rfl

@[simp] theorem tearDown_duplicated (s : SocketRun) : s.tearDown.duplicated = s.duplicated := by
  unfold SocketRun.tearDown
  split <;> rfl

@[simp] theorem tearDown_listening (s : SocketRun) : s.tearDown.listening = s.listening := by
  unfold SocketRun.tearDown
  split <;> rfl

@[simp] theorem tearDown_closed (s : SocketRun) : s.tearDown.closed = s.closed := by
  unfold SocketRun.tearDown
  split <;> rfl

theorem tearDown_quits (s : SocketRun) :
    s.tearDown.quits = s.quits + if s.listening then 1 else 0 := by
  unfold SocketRun.tearDown
  split <;> rfl

theorem SocketInv.tearDown (hi : SocketInv s) : SocketInv s.tearDown := by
  refine ⟨fun h => ?_, fun h => ?_, by simpa using hi.returned⟩
  · obtain ⟨hduplicated, hlistening, hquits⟩ := hi.early (by simpa using h)
    exact ⟨by simpa using hduplicated, by simpa using hlistening,
      by simp [tearDown_quits, hlistening, hquits]⟩
  · obtain ⟨hduplicated, hlistening, hquits⟩ := hi.subscribing (by simpa using h)
    exact ⟨by simpa using hduplicated, by simpa using hlistening,
      by simp [tearDown_quits, hlistening, hquits]⟩

theorem socketInv_step (s : SocketRun) (l : SocketLabel) (t : SocketRun) (hi : SocketInv s)
    (hstep : socketRoute.step s l = some t) : SocketInv t := by
  cases socketMoves_of_step hstep with
  | resolved orgId h => exact ⟨fun _ => hi.early (.inl h), by simp, by simp⟩
  | refused h =>
    have hnone := hi.early (.inl h)
    exact ⟨by simp [SocketRun.close], by simp [SocketRun.close], by simp [SocketRun.close, hnone]⟩
  | missing orgId h =>
    have hnone := hi.early (.inr ⟨orgId, h⟩)
    exact ⟨by simp [SocketRun.close], by simp [SocketRun.close], by simp [SocketRun.close, hnone]⟩
  | loaded orgId job h =>
    have hnone := hi.early (.inr ⟨orgId, h⟩)
    unfold SocketRun.attach
    dsimp only
    split
    · exact ⟨by simp [SocketRun.close], by simp [SocketRun.close], by simp [SocketRun.close, hnone]⟩
    · exact ⟨by simp, fun _ => ⟨rfl, hnone.2⟩, by simp⟩
  | unread orgId message h => exact ⟨by simp, by simp, by simp⟩
  | subscribed h => exact ⟨by simp, by simp, by simp⟩
  | unsubscribed message h => exact ⟨by simp, by simp, by simp⟩
  | message text status h =>
    have hlistening := hi.returned h.2 h.1
    unfold SocketRun.forward
    dsimp only
    split <;> exact ⟨by simp [SocketRun.close, h.2], by simp [SocketRun.close, h.2],
      fun _ _ => hlistening⟩
  | close h =>
    have htear := hi.tearDown
    exact ⟨htear.early, htear.subscribing, htear.returned⟩
  | error h => exact hi.tearDown

/-- A step leaves no subscriber behind exactly if it listens in time. -/
theorem noLeak_step (s : SocketRun) (l : SocketLabel) (t : SocketRun) (hi : SocketInv s)
    (hn : NoLeak s) (hstep : socketRoute.step s l = some t) : ListensInTime s l ↔ NoLeak t := by
  cases socketMoves_of_step hstep with
  | resolved orgId h => simp [ListensInTime, NoLeak]
  | refused h =>
    have hnone := hi.early (.inl h)
    simp [ListensInTime, NoLeak, SocketRun.close, hnone]
  | missing orgId h =>
    have hnone := hi.early (.inr ⟨orgId, h⟩)
    simp [ListensInTime, NoLeak, SocketRun.close, hnone]
  | loaded orgId job h =>
    have hnone := hi.early (.inr ⟨orgId, h⟩)
    unfold SocketRun.attach
    dsimp only
    split
    · simp [ListensInTime, NoLeak, SocketRun.close, hnone]
    · simp [ListensInTime, NoLeak]
  | unread orgId message h =>
    have hnone := hi.early (.inr ⟨orgId, h⟩)
    simp [ListensInTime, NoLeak, hnone]
  | subscribed h =>
    obtain ⟨hduplicated, -, hquits⟩ := hi.subscribing h
    simp [ListensInTime, NoLeak, hduplicated, hquits]
  | unsubscribed message h =>
    obtain ⟨hduplicated, -, hquits⟩ := hi.subscribing h
    simp [ListensInTime, NoLeak, hduplicated, hquits]
  | message text status h =>
    have hkept : NoLeak (s.forward text status) := by
      unfold SocketRun.forward
      dsimp only
      split <;> exact hn
    exact iff_of_true trivial hkept
  | close h =>
    refine iff_of_true trivial fun hended hduplicated => ?_
    have hduplicated : s.duplicated = true := by simpa using hduplicated
    rcases hended with ⟨hreturned, -⟩ | hthrew
    · have hlistening := hi.returned (by simpa using hreturned) hduplicated
      simp [tearDown_quits, hlistening]
    · have hquits := hn (.inr (by simpa using hthrew)) hduplicated
      simp only [tearDown_quits]
      omega
  | error h =>
    refine iff_of_true trivial fun hended hduplicated => ?_
    have hquits := hn (by simpa using hended) (by simpa using hduplicated)
    rw [tearDown_quits]
    omega

theorem noLeak_start (authorization apiKey : Option String) :
    NoLeak (.start authorization apiKey) := by
  unfold SocketRun.start NoLeak
  dsimp only
  split
  · split <;> simp [SocketRun.close]
  · simp [SocketRun.close]

/-- In a run of the handler no connection is left behind at any moment iff every subscription
succeeds on a socket that is not closed. -/
theorem noLeak_iff_listensInTime (authorization apiKey : Option String) (ls : List SocketLabel) :
    socketRoute.Always NoLeak (.start authorization apiKey) ls ↔
      socketRoute.Along ListensInTime (.start authorization apiKey) ls :=
  Machine.always_iff_along socketInv_step noLeak_step (socketInv_start authorization apiKey)
    (noLeak_start authorization apiKey) ls

/-- A job that is being worked on. -/
def attachedJob : JobRow :=
  ⟨jobA, tenantA, none, none, .running, 5, bulkGreeting.payload, 0, none, none, 1, 0, none, none⟩

/-- The client goes away while the route waits for the confirmation of its subscription. -/
theorem noLeak_fails : ¬∀ authorization apiKey ls,
    socketRoute.Always NoLeak (.start authorization apiKey) ls := by
  intro h
  have hleak := Machine.Always.of_run (h (some "Bearer cm_live_demo") none
    [.resolved (some tenantA), .loaded (.ok (some attachedJob)), .close, .subscribed (.ok ())]) rfl
  exact absurd (hleak (.inl ⟨rfl, rfl⟩) rfl) (lt_irrefl 0)

end CloudMesh.Gateway
