import CloudMesh.Gateway.Confinement

/-!
# Callers of `withRequestDedup`

Any number of callers of one key, each with work of its own that leaves the key and the channel
alone. Every caller goes through the stages below: it claims the key and leads, or it looks for a
result, subscribes, looks again and waits. The stage of a caller is determined by the answers that
it has got.

## Main definitions

- `Work`, `callers` — what the callers run, and the system of the callers
- `Stage`, `stageOf` — how far a caller has come
- `Stage.Allows` — the commands of each stage
- `obeys_stages` — every caller keeps to its stages
-/

namespace CloudMesh.Gateway

open Concurrent

/-! ## The system -/

/-- The command is on the key or on the channel. -/
def Cmd.touches (name : String) : Cmd → Bool
  | .redisGet key | .redisSet key .. | .redisSetNx key .. | .redisDel key | .redisIncr key
  | .evalRelease key _ => key = dedupKey name
  | .publish channel _ | .subscribe channel | .awaitMessage channel _ =>
    channel = resultChannel name
  | _ => false

def Foreign (name : String) (c : Cmd) : Prop := c.touches name = false

/-- What a caller wants to have done: it neither touches the key nor the channel. -/
abbrev Work (name : String) := { fn : Prog ChatResponse // Handler.Every (Foreign name) fn }

/-- The store, and when each caller has last written the key; no command can see the latter. -/
structure Marked where
  store : Store
  writtenAt : Pid → Option ℤ

/-- The exchange has written the key. -/
def writesKey (name : String) : Exchange sig → Bool
  | ⟨.redisSetNx key _ _, .ok true⟩ | ⟨.redisSet key _ _, .ok _⟩ => key = dedupKey name
  | _ => false

section System

variable (deps : Deps) (name : String)

/-- `leaderTtlSeconds`. -/
def leaderTtlMs : ℕ := (deps.env.dedupLeaderTtlSeconds : ℕ) * 1000

def Marked.exec (p : Pid) (c : sig.Cmd) (i : Input) (s : Marked) :
    Option (sig.Ans c × Marked) :=
  (Gateway.exec deps.similarity p c i s.store).map fun (r, store) => (r,
    { store := store
      writtenAt := if writesKey name ⟨c, r⟩ then
        Function.update s.writtenAt p (some s.store.clock) else s.writtenAt })

def callers : System sig Pid Marked Input Drift (Work name) (Except Thrown ChatResponse) where
  exec := Marked.exec deps name
  drift e s := (Gateway.drift e s.store).map fun store => { s with store := store }
  code _ work := (withRequestDedup deps.env name work.1).run

end System

abbrev CallerConfig (name : String) :=
  Config sig Pid Marked (Work name) (Except Thrown ChatResponse)

/-- Nobody has called yet. -/
def Marked.fresh (s : Store) : Marked := ⟨s, fun _ => none⟩

/-! ## Stages -/

inductive Stage
  | idle
  | leading
  /-- The write of the result has failed. -/
  | torn
  | stored (response : ChatResponse)
  | released
  | announced (response : Option ChatResponse)
  /-- Somebody else has the key. -/
  | refused
  | looked
  | subscribed
  | waiting
  | over
  deriving DecidableEq

namespace Stage

/-- The stage after a command on the key or the channel. -/
def next : Stage → Exchange sig → Stage
  | .idle, ⟨.redisSetNx .., .ok true⟩ => .leading
  | .idle, ⟨.redisSetNx .., .ok false⟩ => .refused
  | .idle, ⟨.redisSetNx .., .error _⟩ => .over
  | .leading, ⟨.redisSet _ (.response response) _, .ok _⟩ => .stored response
  | .leading, ⟨.redisSet .., .error _⟩ => .torn
  | .leading, ⟨.redisDel _, .ok _⟩ | .torn, ⟨.redisDel _, .ok _⟩
  | .stored _, ⟨.redisDel _, .ok _⟩ => .released
  | .leading, ⟨.redisDel _, .error _⟩ | .torn, ⟨.redisDel _, .error _⟩
  | .stored _, ⟨.redisDel _, .error _⟩ => .over
  | .stored response, ⟨.publish .., .ok _⟩ => .announced (some response)
  | .released, ⟨.publish .., .ok _⟩ => .announced none
  | .released, ⟨.publish .., .error _⟩ => .over
  | .refused, ⟨.redisGet _, .ok none⟩ | .refused, ⟨.redisGet _, .ok (some .processing)⟩ => .looked
  | .refused, ⟨.redisGet _, _⟩ => .over
  | .looked, ⟨.subscribe _, .ok _⟩ => .subscribed
  | .looked, ⟨.subscribe _, .error _⟩ => .over
  | .subscribed, ⟨.redisGet _, .ok none⟩ | .subscribed, ⟨.redisGet _, .ok (some .processing)⟩ =>
    .waiting
  | .subscribed, ⟨.redisGet _, _⟩ => .over
  | .waiting, ⟨.awaitMessage .., _⟩ => .over
  | stage, _ => stage

def after (name : String) (stage : Stage) (e : Exchange sig) : Stage :=
  if e.1.touches name then stage.next e else stage

/-- The caller has claimed the key and has not published its outcome. -/
def owes : Stage → Bool
  | .leading | .torn | .stored _ | .released => true
  | _ => false

/-- The commands that a caller may issue at each stage. -/
inductive Allows (deps : Deps) (name : String) : Stage → Cmd → Prop
  | claim : Allows deps name .idle (.redisSetNx (dedupKey name) .processing (leaderTtlMs deps))
  | lead (c : Cmd) (hc : Foreign name c) : Allows deps name .leading c
  | store (response : ChatResponse) : Allows deps name .leading
      (.redisSet (dedupKey name) (.response response) (leaderTtlMs deps))
  | release (stage : Stage) (h : stage = .leading ∨ stage = .torn ∨ ∃ r, stage = .stored r) :
      Allows deps name stage (.redisDel (dedupKey name))
  | announce (response : ChatResponse) : Allows deps name (.stored response)
      (.publish (resultChannel name) (some response))
  | fail : Allows deps name .released (.publish (resultChannel name) none)
  | look : Allows deps name .refused (.redisGet (dedupKey name))
  | subscribe : Allows deps name .looked (.subscribe (resultChannel name))
  | lookAgain : Allows deps name .subscribed (.redisGet (dedupKey name))
  | wait (since : ℕ) : Allows deps name .waiting (.awaitMessage (resultChannel name) since)
  | fallBack (c : Cmd) (hc : Foreign name c) : Allows deps name .over c

end Stage

def stageIn (name : String) : Transcript sig → Stage
  | [] => .idle
  | e :: t => (stageIn name t).after name e

def stageOf {name : String} (c : CallerConfig name) (p : Pid) : Stage :=
  stageIn name (transcript p c.world.history)

/-! ## Following the code -/

section Triples

variable {deps : Deps} {name : String} {α : Type} {stage stage' : Stage}

/-- A caller issues what its stage allows. -/
def StageRule (deps : Deps) (name : String) (t : Transcript sig) (c : Cmd) : Prop :=
  (stageIn name t).Allows deps name c

def At (name : String) (stage : Stage) (t : Transcript sig) : Prop := stageIn name t = stage

theorem stageIn_cons {c : Cmd} {r : sig.Ans c} {t : Transcript sig} (ht : At name stage t)
    (hc : c.touches name = true) : stageIn name (⟨c, r⟩ :: t) = stage.next ⟨c, r⟩ := by
  unfold At at ht
  simp only [stageIn, Stage.after, hc, if_true, ht]

theorem stageIn_cons_of_foreign {c : Cmd} {r : sig.Ans c} {t : Transcript sig}
    (hc : Foreign name c) : stageIn name (⟨c, r⟩ :: t) = stageIn name t := by
  simp only [stageIn, Stage.after, show c.touches name = false from hc, Bool.false_eq_true,
    if_false]

/-- The work of a caller leaves it at its stage. -/
theorem work_triple {x : Prog α} (hx : Handler.Every (Foreign name) x)
    (hstage : ∀ c, Foreign name c → stage.Allows deps name c) :
    Handler.Triple (StageRule deps name) (At name stage) x (fun _ => At name stage)
      fun _ => At name stage :=
  .of_every hx (fun t c ht hc => by
      unfold StageRule
      rw [show stageIn name t = stage from ht]
      exact hstage c hc)
    fun t c r ht hc => (stageIn_cons_of_foreign hc).trans ht

/-- One command on the key or the channel. -/
theorem touch_triple {c : Cmd} (hc : c.touches name = true) (hallows : stage.Allows deps name c) :
    Handler.Triple (StageRule deps name) (At name stage) (command c)
      (fun r => At name (stage.next ⟨c, .ok r⟩))
      fun err => At name (stage.next ⟨c, .error err⟩) :=
  command_triple (fun t ht => by
      unfold StageRule
      rw [show stageIn name t = stage from ht]
      exact hallows)
    (fun t r ht => stageIn_cons ht hc) fun t err ht => stageIn_cons ht hc

theorem getDedupResult_stage (stage' : Stage)
    (hallows : stage.Allows deps name (.redisGet (dedupKey name)))
    (hnone : ∀ r, r = none ∨ r = some .processing →
      stage.next ⟨.redisGet (dedupKey name), .ok r⟩ = stage')
    (hover : ∀ r, r ≠ .processing →
      stage.next ⟨.redisGet (dedupKey name), .ok (some r)⟩ = .over)
    (herr : ∀ err, stage.next ⟨.redisGet (dedupKey name), .error err⟩ = .over) :
    Handler.Triple (StageRule deps name) (At name stage) (getDedupResult name)
      (fun
        | none => At name stage'
        | some _ => At name .over)
      fun _ => At name .over := by
  have hget : Handler.Triple (StageRule deps name) (At name stage)
      (command (.redisGet (dedupKey name)))
      (fun r => At name (stage.next ⟨.redisGet (dedupKey name), .ok r⟩))
      fun err => At name (stage.next ⟨.redisGet (dedupKey name), .error err⟩) :=
    touch_triple (by simp [Cmd.touches]) hallows
  simp only [getDedupResult, getAs, bind_assoc]
  refine (hget.conseq (fun _ h => h) (fun _ _ h => h) fun err _ h =>
    (herr err) ▸ h).bind fun cached => ?_
  rcases cached with _ | value
  · exact .pure fun _ h => (hnone none (.inl rfl)) ▸ h
  · cases value with
    | processing => exact .pure fun _ h => (hnone _ (.inr rfl)) ▸ h
    | response response =>
      have hnext := hover (.response response) (by simp)
      exact .pure fun _ h => hnext ▸ h
    | text s =>
      have hnext := hover (.text s) (by simp)
      exact .throw fun _ h => hnext ▸ h
    | count n =>
      have hnext := hover (.count n) (by simp)
      exact .throw fun _ h => hnext ▸ h
    | flags flags =>
      have hnext := hover (.flags flags) (by simp)
      exact .throw fun _ h => hnext ▸ h
    | record record =>
      have hnext := hover (.record record) (by simp)
      exact .throw fun _ h => hnext ▸ h

section Caller

variable {fn : Prog ChatResponse} (hfn : Handler.Every (Foreign name) fn)

include hfn

theorem fallBack_triple : Handler.Triple (StageRule deps name) (At name .over) fn
    (fun _ => At name .over) fun _ => At name .over :=
  work_triple hfn fun c hc => .fallBack c hc

theorem waitForLeader_stage : Handler.Triple (StageRule deps name) (At name .looked)
    (waitForLeader name fn) (fun _ => At name .over) fun _ => At name .over := by
  refine Handler.Triple.tryCatch (F := fun _ => At name .over) ?_ fun _ => fallBack_triple hfn
  refine Handler.Triple.bind (touch_triple (by simp [Cmd.touches]) .subscribe) fun since => ?_
  refine Handler.Triple.bind (getDedupResult_stage .waiting .lookAgain ?_ ?_
    fun _ => rfl) fun recheck => ?_
  · rintro r (rfl | rfl) <;> rfl
  · intro r hr
    cases r <;> first | rfl | exact absurd rfl hr
  · cases recheck with
    | some r => exact .pure fun _ h => h
    | none =>
      refine Handler.Triple.bind (touch_triple (by simp [Cmd.touches]) (.wait since))
        fun message => ?_
      rcases message with _ | _ | r
      · exact .throw fun _ h => h
      · exact .throw fun _ h => h
      · exact .pure fun _ h => h

/-- A caller ends when it owes nothing any more. -/
theorem withRequestDedup_stage : Handler.Triple (StageRule deps name) (At name .idle)
    (withRequestDedup deps.env name fn) (fun _ t => (stageIn name t).owes = false)
      fun _ t => (stageIn name t).owes = false := by
  have hover : ∀ t, At name .over t → (stageIn name t).owes = false := by
    intro t ht
    rw [show stageIn name t = .over from ht]
    rfl
  refine Handler.Triple.bind ((touch_triple (by simp [Cmd.touches]) .claim).conseq (fun _ h => h)
    (fun _ _ h => h) fun err t h => hover t h) fun claimed => ?_
  cases claimed with
  | true =>
    refine Handler.Triple.tryCatch (F := fun _ t => ∃ stage, (stage = .leading ∨ stage = .torn ∨
      ∃ r, stage = .stored r) ∧ At name stage t) ?_ fun err => ?_
    · have hwork : Handler.Triple (StageRule deps name) (At name .leading) fn
          (fun _ => At name .leading) fun _ => At name .leading :=
        work_triple hfn fun c hc => .lead c hc
      refine (hwork.conseq (fun _ h => h) (fun _ _ h => h)
        fun _ _ h => ⟨_, .inl rfl, h⟩).bind fun result => ?_
      refine Handler.Triple.bind ((touch_triple (by simp [Cmd.touches]) (.store result)).conseq
        (fun _ h => h) (fun _ _ h => h) fun _ _ h => ⟨_, .inr (.inl rfl), h⟩) fun _ => ?_
      refine Handler.Triple.bind ((touch_triple (by simp [Cmd.touches]) (.announce result)).conseq
        (fun _ h => h) (fun _ _ h => h) fun _ _ h => ⟨_, .inr (.inr ⟨result, rfl⟩), h⟩)
          fun _ => .pure fun t h => ?_
      rw [show stageIn name t = .announced (some result) from h]
      rfl
    · rintro t ⟨stage, hstage, ht⟩
      have hok : stage.next ⟨.redisDel (dedupKey name), .ok ()⟩ = .released := by
        rcases hstage with rfl | rfl | ⟨r, rfl⟩ <;> rfl
      have herr : ∀ e, stage.next ⟨.redisDel (dedupKey name), .error e⟩ = .over := by
        rcases hstage with rfl | rfl | ⟨r, rfl⟩ <;> exact fun _ => rfl
      refine Handler.Triple.bind (Q := fun _ => At name .released)
        ((touch_triple (by simp [Cmd.touches]) (.release stage hstage)).conseq (fun _ h => h)
          (fun _ _ h => hok ▸ h) fun e t h => hover t (herr e ▸ h)) (fun _ => ?_) t ht
      refine Handler.Triple.bind ((touch_triple (by simp [Cmd.touches]) .fail).conseq
        (fun _ h => h) (fun _ _ h => h) fun _ t h => hover t h) fun _ => .throw fun t h => ?_
      rw [show stageIn name t = .announced none from h]
      rfl
  | false =>
    refine Handler.Triple.conseq ?_ (fun _ h => h) (fun _ t h => hover t h) fun _ t h => hover t h
    refine Handler.Triple.bind (getDedupResult_stage .looked .look ?_ ?_
      fun _ => rfl) fun existing => ?_
    · rintro r (rfl | rfl) <;> rfl
    · intro r hr
      cases r <;> first | rfl | exact absurd rfl hr
    · cases existing with
      | some r => exact .pure fun _ h => h
      | none => exact waitForLeader_stage hfn

end Caller

end Triples

/-- The rule of the callers. -/
abbrev CallerConforms {name : String} (deps : Deps) (c : CallerConfig name) : Prop :=
  System.Conforms (fun _ _ => StageRule deps name)
    (fun _ _ _ t => (stageIn name t).owes = false) c

/-- Every caller keeps to its stages, and owes nothing when it has ended. -/
theorem obeys_stages (deps : Deps) (name : String) : (callers deps name).Obeys
    (fun _ _ => StageRule deps name) fun _ _ _ t => (stageIn name t).owes = false := by
  intro p work
  refine (withRequestDedup_stage work.2 [] rfl).mono (fun _ _ h => h) fun r t h => ?_
  cases r <;> exact h

/-- The provider call of a chat request is such work. -/
theorem doCall_foreign (deps : Deps) (name : String) (input : ChatInput) (r : Routed) :
    Handler.Every (Foreign name) (callProviderResilientWithStats deps.env
      r.resolved.provider.name (command (.chat r.resolved.provider (providerReq input r)))) :=
  callProviderResilientWithStats_every (P := Foreign name)
    (fun c hc => by cases c <;> first | rfl | cases hc)
    (every_command (c := .chat r.resolved.provider (providerReq input r)) rfl) _

/-! ## Single steps -/

section Steps

variable {deps : Deps} {name : String} {c d : CallerConfig name} {p : Pid} {cmd : Cmd}
  {r : sig.Ans cmd} {s s' : Store}

/-- The command can change what is under the key. -/
def Cmd.writesTo (name : String) : Cmd → Bool
  | .redisSet key .. | .redisSetNx key .. | .redisDel key | .redisIncr key | .evalRelease key _ =>
    key = dedupKey name
  | _ => false

theorem writesTo_of_foreign (h : Foreign name cmd) : cmd.writesTo name = false := by
  unfold Cmd.writesTo
  split <;> first | exact h | rfl

theorem redis_of_effect (h : s.Effect cmd s') (hc : cmd.writesTo name = false) :
    s'.redis (dedupKey name) = s.redis (dedupKey name) := by
  cases h with
  | set key | setNx key | del key | incr key | release key =>
    have hne : key ≠ dedupKey name := by simpa [Cmd.writesTo] using hc
    exact Function.update_of_ne hne.symm _ _
  | updateJob =>
    unfold Store.updateJob
    split <;> rfl
  | _ => rfl

theorem clock_of_effect (h : s.Effect cmd s') : s'.clock = s.clock := by
  cases h with
  | updateJob =>
    unfold Store.updateJob
    split <;> rfl
  | _ => rfl

theorem stageOf_after {s : Marked}
    {procs : Pid → Option (Proc sig Pid (Work name) (Except Thrown ChatResponse))} :
    stageOf (⟨c.world.after ⟨p, cmd, r⟩ s, procs⟩ : CallerConfig name) =
      Function.update (stageOf c) p ((stageOf c p).after name ⟨cmd, r⟩) := by
  funext q
  unfold stageOf
  rw [World.after_history]
  by_cases hqp : q = p
  · subst hqp
    rw [Function.update_self, transcript_cons_self]
    rfl
  · rw [Function.update_of_ne hqp, transcript_cons_of_ne (Ne.symm hqp)]

/-- A caller that owes its outcome has not ended. -/
theorem running_of_owes (hconf : CallerConforms deps c) (hp : (stageOf c p).owes = true) :
    ∃ P, c.procs p = some P ∧ P.prog.returned = none := by
  cases hproc : c.procs p with
  | none =>
    rw [stageOf, hconf.fresh p hproc] at hp
    cases hp
  | some P =>
    refine ⟨P, rfl, ?_⟩
    cases hprog : P.prog with
    | issue cmd k => rfl
    | done r => exact nomatch hp.symm.trans (hconf.result hproc hprog)

end Steps

/-! ## Callers with one call of a provider -/

/-- One call of a provider. -/
def asking : Work "greeting" :=
  ⟨command (.chat ⟨"openai"⟩ (greeting "gpt-4o-mini" none).request), rfl, fun _ => trivial⟩

abbrev GreetingLabel := Label Pid Input Drift (Work "greeting")

/-- The next commands of one caller, none of which fails. -/
def calls (p : Pid) (choices : List Choice) : List GreetingLabel :=
  choices.map fun choice => .step p ⟨choice, none⟩

end CloudMesh.Gateway
