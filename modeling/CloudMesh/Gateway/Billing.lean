import CloudMesh.Gateway.Requests
import CloudMesh.Rows

/-!
# Billing of chat requests

Leaders, followers, cache hits and requests that fall back all end in the same recording code, with
a response of their own or a shared one. Every answer of a provider is billed once, whoever records
it first, as long as the price of its model is a number and Postgres can store what it reports.

## Main definitions

- `BilledOnce` — every answer has its one row and its one event, and every row has its answer
- `Undisturbed` — nothing fails but the providers, and they number their answers
- `Billable` — the condition on the answers
-/

namespace CloudMesh.Gateway

open Concurrent

/-! ## Answers and bills -/

/-- The whole answers of the providers, with the processes they were given to. -/
def answersIn (h : List GatewayEvent) : List (Pid × ChatRequest × ChatResponse) :=
  h.filterMap fun e => (answerOf ⟨e.cmd, e.ans⟩).map fun x => (e.pid, x)

/-- What a usage event reports. -/
def OutboxEvent.usage : OutboxEvent → Option (RecordUsageParams × ℚ)
  | .usageRecorded params costUsd => some (params, costUsd)
  | _ => none

/-- The row bills the answer, at its price. -/
structure Bills (row : UsageRow) (p : Pid) (req : ChatRequest) (response : ChatResponse) :
    Prop where
  org : row.params.orgId = p.orgId
  requestId : row.params.requestId = response.id
  model : row.params.model = req.model
  usage : row.params.usage = response.usage
  cost : computeCostUsd req.model response.usage = some row.costUsd

structure BilledOnce (c : GatewayConfig) : Prop where
  billed : ∀ p req response, (outcomeOf c p).isSome = true →
    (p, req, response) ∈ answersIn c.world.history → ∃ row, Bills row p req response ∧
      c.world.shared.usageRecords.filter (fun row => row.params.requestId = response.id) = [row] ∧
      (c.world.shared.outbox.filterMap OutboxEvent.usage).filter
        (fun u => u.1.requestId = response.id) = [(row.params, row.costUsd)]
  backed : ∀ row ∈ c.world.shared.usageRecords, ∃ p req response,
    (p, req, response) ∈ answersIn c.world.history ∧ Bills row p req response

/-! ## Conditions on the steps -/

def Op.isChat : Op → Bool
  | .chat _ => true
  | _ => false

/-- A command of the infrastructure has failed. -/
def infrastructureFails (e : GatewayEvent) : Bool :=
  match e.ans with
  | .ok _ => false
  | .error _ => e.cmd.isInfrastructure

/-- An answer's id is not the id of an answer before it. -/
def freshlyAnswered (e : GatewayEvent) (h : List GatewayEvent) : Bool :=
  (answerOf ⟨e.cmd, e.ans⟩).all fun x => (answersIn h).all fun y => y.2.2.id ≠ x.2.id

/-- All operations are chat requests, the infrastructure does not fail, and no two answers of
providers have one id. -/
def Undisturbed (c : GatewayConfig) : Action sig Pid Drift Op → Prop
  | .start _ op => op.isChat = true
  | .command e => infrastructureFails e = false ∧ freshlyAnswered e c.world.history = true
  | .drift _ => True

/-- What has been answered has a price, and Postgres takes what there is to be recorded. -/
def Billable (_ : GatewayConfig) : Action sig Pid Drift Op → Prop
  | .command e => (answerOf ⟨e.cmd, e.ans⟩).all fun x => isBillable x.1 x.2
  | .start .. | .drift _ => True

instance (c : GatewayConfig) (a : Action sig Pid Drift Op) : Decidable (Undisturbed c a) :=
  match a with
  | .start _ op => inferInstanceAs (Decidable (op.isChat = true))
  | .command e => inferInstanceAs (Decidable (infrastructureFails e = false ∧
      freshlyAnswered e c.world.history = true))
  | .drift _ => isTrue trivial

instance (c : GatewayConfig) (a : Action sig Pid Drift Op) : Decidable (Billable c a) :=
  match a with
  | .start .. => isTrue trivial
  | .command e => inferInstanceAs (Decidable
      ((answerOf ⟨e.cmd, e.ans⟩).all (fun x => isBillable x.1 x.2) = true))
  | .drift _ => isTrue trivial

/-! ## Lemmas on answers -/

section Answers

variable {h : List GatewayEvent} {p : Pid} {req : ChatRequest} {response : ChatResponse}

theorem mem_answersIn :
    (p, req, response) ∈ answersIn h ↔ (req, response) ∈ answers (transcript p h) := by
  simp only [answersIn, answers, List.mem_filterMap, Option.map_eq_some_iff, Prod.mk.injEq]
  constructor
  · rintro ⟨⟨q, c, r⟩, he, x, hx, rfl, rfl⟩
    exact ⟨⟨c, r⟩, mem_transcript.mpr he, hx⟩
  · rintro ⟨⟨c, r⟩, he, hx⟩
    exact ⟨⟨p, c, r⟩, mem_transcript.mp he, _, hx, rfl, rfl⟩

theorem answersIn_cons (e : GatewayEvent) :
    answersIn (e :: h) =
      ((answerOf ⟨e.cmd, e.ans⟩).map fun x => (e.pid, x)).toList ++ answersIn h := by
  cases hx : answerOf ⟨e.cmd, e.ans⟩ <;> simp [answersIn, hx]

theorem mem_answersIn_of_suffix {h' : List GatewayEvent} {x : Pid × ChatRequest × ChatResponse}
    (hle : h <:+ h') (hx : x ∈ answersIn h) : x ∈ answersIn h' :=
  (hle.filterMap _).subset hx

end Answers

/-! ## Shared responses -/

section Shared

variable {deps : Deps} {c d : GatewayConfig} {a : Action sig Pid Drift Op}

/-- The response is some request's own answer, and the request is coalesced by `name`. -/
def SharedAs (deps : Deps) (name : String) (response : ChatResponse) (h : List GatewayEvent) :
    Prop :=
  ∃ q req, (q, req, response) ∈ answersIn h ∧
    name = coalescedBy deps q.orgId req.model req.messages

theorem SharedAs.of_suffix {name : String} {response : ChatResponse} {h h' : List GatewayEvent}
    (hs : SharedAs deps name response h) (hle : h <:+ h') : SharedAs deps name response h' := by
  obtain ⟨q, req, hmem, hname⟩ := hs
  exact ⟨q, req, mem_answersIn_of_suffix hle hmem, hname⟩

theorem AnsweredFor.shared {p : Pid} {name : String} {response : ChatResponse}
    {h : List GatewayEvent}
    (ha : AnsweredFor deps p.orgId name response (transcript p h)) :
    SharedAs deps name response h := by
  obtain ⟨req, hmem, hname⟩ := ha
  exact ⟨p, req, mem_answersIn.mpr hmem, hname⟩

/-- Every operation is a chat request, and every response that Redis holds or has handed out is an
answer to a request with the same name. -/
structure Coalesced (deps : Deps) (c : GatewayConfig) : Prop where
  chats : ∀ p P, c.procs p = some P → ∃ input, P.op = .chat input
  stored : ∀ key response, c.world.shared.value key = some (.response response) →
    ∃ name, key = dedupKey name ∧ SharedAs deps name response c.world.history
  published : ∀ channel response, some response ∈ c.world.shared.published channel →
    ∃ name, channel = resultChannel name ∧ SharedAs deps name response c.world.history
  got : ∀ p key response, ⟨p, .redisGet key, .ok (some (.response response))⟩ ∈ c.world.history →
    ∃ name, key = dedupKey name ∧ SharedAs deps name response c.world.history
  told : ∀ p channel since response,
    ⟨p, .awaitMessage channel since, .ok (some (some response))⟩ ∈ c.world.history →
      ∃ name, channel = resultChannel name ∧ SharedAs deps name response c.world.history

theorem coalesced_init (s : Store) (hv : ∀ key response, s.value key ≠ some (.response response))
    (hp : ∀ channel response, some response ∉ s.published channel) :
    Coalesced deps (.init s) where
  chats _ _ h := nomatch h
  stored key response h := absurd h (hv key response)
  published channel response h := absurd h (hp channel response)
  got _ _ _ h := absurd h List.not_mem_nil
  told _ _ _ _ h := absurd h List.not_mem_nil

theorem published_of_drift {e : Drift} {s s' : Store} (h : drift e s = some s') :
    s'.published = s.published := by
  cases e <;> cases h <;> rfl

theorem chats_start {p : Pid} {op : Op}
    (hc : ∀ p P, c.procs p = some P → ∃ input, P.op = .chat input) (hop : op.isChat = true)
    {q : Pid} {Q : Proc sig Pid Op Outcome} {h : List GatewayEvent} {prog : Program sig Outcome}
    (hq : Function.update c.procs p (some ⟨op, h, prog⟩) q = some Q) :
    ∃ input, Q.op = .chat input := by
  by_cases hqp : q = p
  · subst hqp
    obtain rfl := Option.some.inj ((Function.update_self q _ c.procs).symm.trans hq)
    cases op with
    | chat input => exact ⟨input, rfl⟩
    | _ => cases hop
  · exact hc q Q ((Function.update_of_ne hqp _ c.procs).symm.trans hq)

theorem ops_command {p : Pid} {P : Proc sig Pid Op Outcome} {prog : Program sig Outcome}
    (hp : c.procs p = some P) {q : Pid} {Q : Proc sig Pid Op Outcome}
    (hq : Function.update c.procs p (some { P with prog := prog }) q = some Q) :
    ∃ Q', c.procs q = some Q' ∧ Q'.op = Q.op := by
  by_cases hqp : q = p
  · subst hqp
    obtain rfl := Option.some.inj ((Function.update_self q _ c.procs).symm.trans hq)
    exact ⟨P, hp, rfl⟩
  · exact ⟨Q, (Function.update_of_ne hqp _ c.procs).symm.trans hq, rfl⟩

theorem coalesced_step (hconf : System.Conforms (Rule deps) Ended c) (hi : Coalesced deps c)
    (hal : Undisturbed c a) (hstep : (gateway deps).Steps c a d) : Coalesced deps d := by
  cases hstep with
  | start => exact { hi with chats := fun _ _ hq => chats_start hi.chats hal hq }
  | drift hx =>
    exact { hi with
      stored := fun key response hv => hi.stored key response (value_of_drift hx hv)
      published := fun channel response hm =>
        hi.published channel response (published_of_drift hx ▸ hm) }
  | @command p i P cmd k r s hp hk hx =>
    obtain ⟨input, hop⟩ := hi.chats p P hp
    have hrule := hconf.allowed hp hk
    rw [hop] at hrule
    have hle : c.world.history <:+ ⟨p, cmd, r⟩ :: c.world.history := List.suffix_cons _ _
    have heffect := effect_of_exec (p := p) hx
    refine ⟨fun q Q hq => ?_, fun key response hv => ?_, fun channel response hm => ?_,
      fun q key response hmem => ?_, fun q channel since response hmem => ?_⟩
    · obtain ⟨Q', hQ', heq⟩ := ops_command hp hq
      exact heq ▸ hi.chats q Q' hQ'
    · rcases value_of_effect heffect hv with hold | ⟨ttlMs, rfl⟩ | ⟨ttlMs, rfl⟩ | ⟨n, hn⟩
      · obtain ⟨name, hkey, hs⟩ := hi.stored key response hold
        exact ⟨name, hkey, hs.of_suffix hle⟩
      · obtain ⟨name, hkey, ha⟩ := hrule.1
        exact ⟨name, hkey, ha.shared.of_suffix hle⟩
      · exact hrule.1.elim
      · cases hn
    · rcases published_of_effect heffect hm with hold | rfl
      · obtain ⟨name, hch, hs⟩ := hi.published channel response hold
        exact ⟨name, hch, hs.of_suffix hle⟩
      · obtain ⟨name, hch, ha⟩ := hrule.1
        exact ⟨name, hch, ha.shared.of_suffix hle⟩
    · rcases List.mem_cons.mp hmem with heq | hold
      · cases heq
        obtain ⟨name, hkey, hs⟩ := hi.stored key response (value_of_redisGet (p := p) hx)
        exact ⟨name, hkey, hs.of_suffix hle⟩
      · obtain ⟨name, hkey, hs⟩ := hi.got q key response hold
        exact ⟨name, hkey, hs.of_suffix hle⟩
    · rcases List.mem_cons.mp hmem with heq | hold
      · cases heq
        obtain ⟨name, hch, hs⟩ :=
          hi.published channel response (published_of_awaitMessage (p := p) hx)
        exact ⟨name, hch, hs.of_suffix hle⟩
      · obtain ⟨name, hch, hs⟩ := hi.told q channel since response hold
        exact ⟨name, hch, hs.of_suffix hle⟩

end Shared

/-! ## The ledger -/

section Ledger

variable {deps : Deps} {c d : GatewayConfig} {a : Action sig Pid Drift Op}

/-- What the store's bills are, with the usage events that the outbox holds. -/
def Store.usageEvents (s : Store) : List (RecordUsageParams × ℚ) :=
  s.outbox.filterMap OutboxEvent.usage

/-- One command adds one row with its event, or none. -/
theorem usage_of_effect {s s' : Store} {cmd : Cmd} (h : s.Effect cmd s')
    (hw : ∀ params cost, cmd ≠ .writeOutboxEvent (.usageRecorded params cost)) :
    s'.usageRecords = s.usageRecords ∧ s'.usageEvents = s.usageEvents ∨
      ∃ params cost, cmd = .insertUsage params (some cost) ∧ ¬s.hasUsage params.requestId ∧
        s'.usageRecords = s.usageRecords ++ [⟨params, cost, s.clock⟩] ∧
        s'.usageEvents = s.usageEvents ++ [(params, cost)] := by
  cases h with
  | insertUsage params cost hnot =>
    exact .inr ⟨params, cost, rfl, hnot, rfl, by simp [Store.usageEvents, OutboxEvent.usage]⟩
  | writeOutboxEvent event =>
    refine .inl ⟨rfl, ?_⟩
    cases event with
    | usageRecorded params cost => exact absurd rfl (hw params cost)
    | _ => simp [Store.usageEvents, OutboxEvent.usage]
  | updateJob orgId id update =>
    unfold Store.updateJob
    split
    · exact .inl ⟨rfl, rfl⟩
    · rename_i row _
      refine .inl ⟨rfl, ?_⟩
      have hnone : (update.event row).toList.filterMap OutboxEvent.usage = [] := by
        unfold JobUpdate.event
        split <;> rfl
      simp [Store.usageEvents, hnone]
  | _ => exact .inl ⟨rfl, rfl⟩

theorem usageEvents_of_drift {e : Drift} {s s' : Store} (h : drift e s = some s') :
    s'.usageRecords = s.usageRecords ∧ s'.usageEvents = s.usageEvents := by
  cases e <;> cases h <;> exact ⟨rfl, rfl⟩

/-- An insert that is answered finds the row or adds it. -/
theorem hasUsage_of_insertUsage {similarity : List ℚ → List ℚ → ℚ} {p : Pid}
    {params : RecordUsageParams} {cost : Option ℚ} {i : Input} {s s' : Store} {answer : Bool}
    (h : exec similarity p (.insertUsage params cost) i s = some (.ok answer, s')) :
    s'.hasUsage params.requestId := by
  have hperform := perform_of_exec h
  simp only [Store.perform, Store.insertUsage] at hperform
  split at hperform
  · cases hperform
  · split at hperform
    · rename_i hhas
      cases hperform
      exact hhas
    · cases hperform
      exact ⟨_, List.mem_append_right _ (List.mem_singleton_self _), rfl⟩

/-- The rows have different ids, each with its one event, and come from inserts; an insert that has
been answered has left a row. -/
structure Books (w : GatewayWorld) : Prop where
  inserted : ∀ row ∈ w.shared.usageRecords, ∃ p answer,
    ⟨p, .insertUsage row.params (some row.costUsd), answer⟩ ∈ w.history
  unique : (w.shared.usageRecords.map fun row => row.params.requestId).Nodup
  events : w.shared.usageEvents = w.shared.usageRecords.map fun row => (row.params, row.costUsd)
  recorded : ∀ p params cost answer, ⟨p, .insertUsage params cost, .ok answer⟩ ∈ w.history →
    w.shared.hasUsage params.requestId

theorem books_init (s : Store) (hrows : s.usageRecords = []) (hout : s.usageEvents = []) :
    Books ⟨s, []⟩ where
  inserted row h := absurd (hrows ▸ h : row ∈ []) List.not_mem_nil
  unique := by
    show (s.usageRecords.map _).Nodup
    rw [hrows]
    exact List.nodup_nil
  events := by
    show s.usageEvents = s.usageRecords.map _
    rw [hrows, hout, List.map_nil]
  recorded _ _ _ _ h := absurd h List.not_mem_nil

section Books

variable {w : GatewayWorld} {s : Store}

theorem Books.of_eq (hb : Books w) (hrows : s.usageRecords = w.shared.usageRecords)
    (hevents : s.usageEvents = w.shared.usageEvents) : Books ⟨s, w.history⟩ where
  inserted row h := hb.inserted row (hrows ▸ h)
  unique := by
    show (s.usageRecords.map _).Nodup
    rw [hrows]
    exact hb.unique
  events := by
    show s.usageEvents = s.usageRecords.map _
    rw [hrows, hevents]
    exact hb.events
  recorded p params cost answer h := by
    obtain ⟨row, hrow, hid⟩ := hb.recorded p params cost answer h
    exact ⟨row, hrows ▸ hrow, hid⟩

/-- Every command keeps the books, unless it reports usage without recording it. -/
theorem Books.command (hb : Books w) {similarity : List ℚ → List ℚ → ℚ} {p : Pid} {cmd : sig.Cmd}
    {i : Input} {r : sig.Ans cmd}
    (hw : ∀ params cost, cmd ≠ .writeOutboxEvent (.usageRecorded params cost))
    (hx : exec similarity p cmd i w.shared = some (r, s)) : Books (w.after ⟨p, cmd, r⟩ s) := by
  have husage := usage_of_effect (effect_of_exec (p := p) hx) hw
  have hkept : ∀ {id}, w.shared.hasUsage id → s.hasUsage id := by
    rintro id ⟨row, hrow, hid⟩
    rcases husage with ⟨hrows, -⟩ | ⟨params, cost, -, -, hrows, -⟩
    · exact ⟨row, hrows ▸ hrow, hid⟩
    · exact ⟨row, hrows ▸ List.mem_append_left _ hrow, hid⟩
  refine ⟨fun row hrow => ?_, ?_, ?_, fun q params cost answer hmem => ?_⟩
  · have hold : row ∈ w.shared.usageRecords → ∃ q answer,
        (⟨q, .insertUsage row.params (some row.costUsd), answer⟩ : GatewayEvent) ∈
          ⟨p, cmd, r⟩ :: w.history := by
      intro hrow
      obtain ⟨q, answer, hmem⟩ := hb.inserted row hrow
      exact ⟨q, answer, List.mem_cons_of_mem _ hmem⟩
    rcases husage with ⟨hrows, -⟩ | ⟨params, cost, rfl, -, hrows, -⟩
    · exact hold (hrows ▸ hrow)
    · have hrow' : row ∈ w.shared.usageRecords ++ [⟨params, cost, w.shared.clock⟩] := hrows ▸ hrow
      rcases List.mem_append.mp hrow' with hrow | hrow
      · exact hold hrow
      · rw [List.mem_singleton.mp hrow]
        exact ⟨p, r, List.mem_cons_self⟩
  · rcases husage with ⟨hrows, -⟩ | ⟨params, cost, -, hnot, hrows, -⟩
    · exact hrows ▸ hb.unique
    · show (s.usageRecords.map _).Nodup
      rw [hrows, List.map_append, List.nodup_append]
      refine ⟨hb.unique, List.nodup_singleton _, fun id hid id' hid' heq => hnot ?_⟩
      obtain ⟨row, hrow, rfl⟩ := List.mem_map.mp hid
      exact ⟨row, hrow, heq.trans (List.mem_singleton.mp hid')⟩
  · show s.usageEvents = s.usageRecords.map _
    rcases husage with ⟨hrows, hevents⟩ | ⟨params, cost, -, -, hrows, hevents⟩
    · rw [hrows, hevents]
      exact hb.events
    · rw [hrows, hevents, hb.events, List.map_append, List.map_singleton]
  · rcases List.mem_cons.mp hmem with heq | hold
    · cases heq
      exact hasUsage_of_insertUsage (p := p) hx
    · exact hkept (hb.recorded q params cost answer hold)

end Books

/-- The books, with the faults and the answers of the run. -/
structure Ledger (c : GatewayConfig) : Prop where
  sound : ∀ e ∈ c.world.history, infrastructureFails e = false
  fresh : ((answersIn c.world.history).map fun x => x.2.2.id).Nodup
  billable : ∀ x ∈ answersIn c.world.history, isBillable x.2.1 x.2.2 = true
  inserted : ∀ row ∈ c.world.shared.usageRecords, ∃ p answer,
    ⟨p, .insertUsage row.params (some row.costUsd), answer⟩ ∈ c.world.history
  unique : (c.world.shared.usageRecords.map fun row => row.params.requestId).Nodup
  events : c.world.shared.usageEvents =
    c.world.shared.usageRecords.map fun row => (row.params, row.costUsd)
  recorded : ∀ p params cost answer, ⟨p, .insertUsage params (some cost), .ok answer⟩ ∈
    c.world.history → c.world.shared.hasUsage params.requestId

theorem Books.ledger (hb : Books c.world)
    (hs : ∀ e ∈ c.world.history, infrastructureFails e = false)
    (hf : ((answersIn c.world.history).map fun x => x.2.2.id).Nodup)
    (hp : ∀ x ∈ answersIn c.world.history, isBillable x.2.1 x.2.2 = true) :
    Ledger c :=
  ⟨hs, hf, hp, hb.inserted, hb.unique, hb.events, fun p params cost => hb.recorded p params cost⟩

theorem Ledger.answers_step {e : GatewayEvent} (hi : Ledger c)
    (hfresh : freshlyAnswered e c.world.history = true)
    (hbillable : ((answerOf ⟨e.cmd, e.ans⟩).all fun x => isBillable x.1 x.2) = true) :
    ((answersIn (e :: c.world.history)).map fun x => x.2.2.id).Nodup ∧
      ∀ x ∈ answersIn (e :: c.world.history), isBillable x.2.1 x.2.2 = true := by
  rw [answersIn_cons]
  unfold freshlyAnswered at hfresh
  cases hx : answerOf ⟨e.cmd, e.ans⟩ with
  | none => exact ⟨hi.fresh, hi.billable⟩
  | some x =>
    rw [hx] at hfresh hbillable
    simp only [Option.all_some, List.all_eq_true, decide_eq_true_eq] at hfresh hbillable
    simp only [Option.map_some, Option.toList_some, List.singleton_append, List.map_cons,
      List.nodup_cons]
    refine ⟨⟨fun hmem => ?_, hi.fresh⟩, fun y hy => ?_⟩
    · obtain ⟨y, hy, heq⟩ := List.mem_map.mp hmem
      exact hfresh y hy heq
    · rcases List.mem_cons.mp hy with rfl | hy
      · exact hbillable
      · exact hi.billable y hy

theorem ledger_step (hconf : System.Conforms (Rule deps) Ended c) (hco : Coalesced deps c)
    (hi : Books c.world ∧ Ledger c) (hal : Undisturbed c a) (hbillable : Billable c a)
    (hstep : (gateway deps).Steps c a d) : Books d.world ∧ Ledger d := by
  obtain ⟨hb, hl⟩ := hi
  cases hstep with
  | start => exact ⟨hb, { hl with }⟩
  | drift hx =>
    obtain ⟨hrows, hevents⟩ := usageEvents_of_drift hx
    have hb' := hb.of_eq hrows hevents
    exact ⟨hb', Books.ledger hb' hl.sound hl.fresh hl.billable⟩
  | @command p i P cmd k r s hp hk hx =>
    obtain ⟨input, hop⟩ := hco.chats p P hp
    have hrule := hconf.allowed hp hk
    rw [hop] at hrule
    have hw : ∀ params cost, cmd ≠ .writeOutboxEvent (.usageRecorded params cost) := by
      rintro params cost rfl
      exact hrule.1
    have hb' := hb.command (p := p) hw hx
    obtain ⟨hfresh, hbills⟩ := hl.answers_step hal.2 hbillable
    refine ⟨hb', Books.ledger hb' (fun e he => ?_) hfresh hbills⟩
    rcases List.mem_cons.mp he with rfl | he
    · exact hal.1
    · exact hl.sound e he

/-! ## Assembly -/

theorem dedupKey_injective : Function.Injective dedupKey := fun _ _ h => append_right_inj h

/-- Requests with one name are of one org and for one model. -/
theorem coalescedBy_inj {A B : OrgId} {model model' : String} {ms ns : List Message}
    (hsha : Function.Injective deps.sha256)
    (h : coalescedBy deps A model ms = coalescedBy deps B model' ns) :
    A = B ∧ model = model' ∧ ms = ns := by
  obtain ⟨horg, hhash⟩ := dedupName_inj h
  exact ⟨horg, canonicalPrompt_inj (hsha hhash)⟩

theorem SharedAs.answer {orgId : OrgId} {model : String} {ms : List Message}
    {response : ChatResponse} {h : List GatewayEvent} (hsha : Function.Injective deps.sha256)
    (hs : SharedAs deps (coalescedBy deps orgId model ms) response h) :
    ∃ q req, (q, req, response) ∈ answersIn h ∧ q.orgId = orgId ∧ req.model = model := by
  obtain ⟨q, req, hmem, hname⟩ := hs
  obtain ⟨horg, hmodel, -⟩ := coalescedBy_inj hsha hname
  exact ⟨q, req, hmem, horg.symm, hmodel.symm⟩

section Assembly

variable (hsha : Function.Injective deps.sha256) (hconf : System.Conforms (Rule deps) Ended c)
  (hco : Coalesced deps c) (hi : Ledger c)

include hsha hconf hco hi

/-- A row comes from an insert, and the insert from an answer, the request's own or a shared one. -/
theorem Ledger.backed {row : UsageRow} (hrow : row ∈ c.world.shared.usageRecords) :
    ∃ p req response, (p, req, response) ∈ answersIn c.world.history ∧
      Bills row p req response := by
  obtain ⟨p, answer, hmem⟩ := hi.inserted row hrow
  obtain ⟨P, hist, hP, hsuf, hrule⟩ := hconf.exists_of_mem hmem
  obtain ⟨input, hop⟩ := hco.chats p P hP
  rw [hop] at hrule
  obtain ⟨⟨horg, hcost, response, hid, husage, hobtained⟩, -⟩ := hrule
  have hle : hist <:+ c.world.history := (List.suffix_cons _ _).trans hsuf
  have hanswer : ∃ q req, (q, req, response) ∈ answersIn c.world.history ∧ q.orgId = p.orgId ∧
      req.model = row.params.model := by
    cases hobtained with
    | answered req hm hms h =>
      exact ⟨p, req, mem_answersIn_of_suffix hle (mem_answersIn.mpr h), rfl, hm⟩
    | stored h =>
      obtain ⟨name, hkey, hs⟩ :=
        hco.got p _ response (hle.subset (mem_transcript.mp h))
      rw [← dedupKey_injective hkey] at hs
      exact hs.answer hsha
    | told since h =>
      obtain ⟨name, hch, hs⟩ :=
        hco.told p _ since response (hle.subset (mem_transcript.mp h))
      rw [← resultChannel_injective hch] at hs
      exact hs.answer hsha
  obtain ⟨q, req, hmemq, horgq, hmodel⟩ := hanswer
  refine ⟨q, req, response, hmemq, horg.trans horgq.symm, hid, hmodel.symm, husage, ?_⟩
  rw [hmodel, ← husage]
  exact hcost.symm

/-- An answer whose id is on a row is the one that the row bills. -/
theorem Ledger.bills {row : UsageRow} (hrow : row ∈ c.world.shared.usageRecords) {p : Pid}
    {req : ChatRequest} {response : ChatResponse}
    (hmem : (p, req, response) ∈ answersIn c.world.history)
    (hid : row.params.requestId = response.id) : Bills row p req response := by
  obtain ⟨q, req', response', hmem', hbills⟩ := hi.backed hsha hconf hco hrow
  have heq := List.inj_on_of_nodup_map hi.fresh hmem' hmem (hbills.requestId.symm.trans hid)
  cases heq
  exact hbills

theorem billedOnce_of_ledger : BilledOnce c := by
  refine ⟨fun p req response hend hmem => ?_, fun row hrow => hi.backed hsha hconf hco hrow⟩
  have hans : (req, response) ∈ answers (transcript p c.world.history) := mem_answersIn.mp hmem
  have hhas : c.world.shared.hasUsage response.id := by
    obtain ⟨outcome, hout⟩ := Option.isSome_iff_exists.mp hend
    obtain ⟨P, hP, hret⟩ := Option.bind_eq_some_iff.mp hout
    obtain ⟨input, hop⟩ := hco.chats p P hP
    have hended : Ended p P.op outcome (transcript p c.world.history) := by
      cases hprog : P.prog with
      | done a =>
        rw [hprog] at hret
        exact Option.some.inj hret ▸ hconf.result hP hprog
      | issue cmd k =>
        rw [hprog] at hret
        cases hret
    rw [hop] at hended
    rcases hended.1 with ⟨cmd, err, hfault, hinf⟩ | hnil | ⟨req', response', hone, hbill⟩
    · have hsound := hi.sound _ (mem_transcript.mp hfault)
      simp [infrastructureFails, hinf] at hsound
    · rw [hnil] at hans
      exact absurd hans List.not_mem_nil
    · rw [hone] at hans
      cases List.mem_singleton.mp hans
      rcases hbill with hnone | ⟨params, cost, recorded, hid, hinsert⟩
      · have hbillable := hi.billable _ hmem
        rw [hnone] at hbillable
        cases hbillable
      · exact hid ▸ hi.recorded p params cost recorded (mem_transcript.mp hinsert)
  obtain ⟨row, hrow, hid⟩ := hhas
  have hfilter :
      c.world.shared.usageRecords.filter (fun row => row.params.requestId = response.id) =
      [row] := filter_eq_singleton hi.unique hrow hid
  refine ⟨row, hi.bills hsha hconf hco hrow hmem hid, hfilter, ?_⟩
  have hevents : c.world.shared.outbox.filterMap OutboxEvent.usage =
      c.world.shared.usageRecords.map fun row => (row.params, row.costUsd) := hi.events
  have hsingle : [(row.params, row.costUsd)] =
      [row].map fun row : UsageRow => (row.params, row.costUsd) := rfl
  rw [hevents, List.filter_map, hsingle, ← hfilter]
  rfl

end Assembly

end Ledger

/-- In a run of chat requests in which only providers fail, they number their answers and no two
prompts have one hash, every answer is billed once if all answers can be billed. -/
theorem billedOnce_of_billable (deps : Deps) (hsha : Function.Injective deps.sha256)
    (organizations : OrgId → Option OrgRow) (billingPlans : String → Option ℚ)
    (ls : List GatewayLabel) (c : GatewayConfig)
    (hrun : (gateway deps).run (.init (.fresh organizations billingPlans)) ls = some c)
    (hal : (gateway deps).Along Undisturbed (.init (.fresh organizations billingPlans)) ls)
    (hbillable : (gateway deps).Along Billable (.init (.fresh organizations billingPlans)) ls) :
    BilledOnce c := by
  have hbooks : Books ⟨.fresh organizations billingPlans, []⟩ := books_init _ rfl rfl
  have hledger : Ledger (.init (.fresh organizations billingPlans)) :=
    Books.ledger hbooks (fun _ h => absurd h List.not_mem_nil) List.nodup_nil
      fun _ h => absurd h List.not_mem_nil
  have hi : Coalesced deps c ∧ Books c.world ∧ Ledger c :=
    System.invariant_run (I := fun c => Coalesced deps c ∧ Books c.world ∧ Ledger c) (obeys deps)
      (fun _ _ _ hconf hi ha hstep => ⟨coalesced_step hconf hi.1 ha.1 hstep,
        ledger_step hconf hi.1 hi.2 ha.1 ha.2 hstep⟩) (System.conforms_init _)
      ⟨coalesced_init _ (fun _ _ h => by cases h) fun _ _ => List.not_mem_nil, hbooks, hledger⟩
      hrun (hal.and hbillable)
  exact billedOnce_of_ledger hsha (System.conforms_run (obeys deps) hrun) hi.1 hi.2.2

/-! ### A leader and its follower -/

/-- SHA-256 of the one prompt that is hashed; nothing else collides with it. -/
def greetingDeps : Deps := { plainDeps with
  sha256 := Equiv.swap (canonicalPrompt "gpt-4o-mini" [⟨.user, "hello"⟩])
    "e659f0ccab7613e5972004e14f78a6017b74f63f1863c0a4045cf07deca4f9bd" }

/-- An org that coalesces its requests. -/
def coalescing : OrgId → Option OrgRow :=
  fun _ => some ⟨"free", none, { OrgFeatureFlags.defaults with requestDedup := true }⟩

/-- The second request comes while the first one is at the provider. -/
def followed : List GatewayLabel :=
  ([.start ⟨tenantA, 0⟩ (.chat (greeting "gpt-4o-mini" none))] : List GatewayLabel) ++
  steps ⟨tenantA, 0⟩ [.nothing, .nothing, .nothing, .nothing] ++
  ([.start ⟨tenantA, 1⟩ (.chat (greeting "gpt-4o-mini" none))] : List GatewayLabel) ++
  steps ⟨tenantA, 1⟩ [.nothing, .nothing, .nothing, .nothing, .nothing] ++
  steps ⟨tenantA, 0⟩ (calling (.ok (greeted "chatcmpl-1")) ++ [.nothing, .nothing]) ++
  steps ⟨tenantA, 1⟩ [.message (some 0), .nothing] ++
  steps ⟨tenantA, 0⟩ [.nothing]

theorem billedOnce_of_billable_followed :
    ∃ c, (gateway greetingDeps).run (.init (.fresh coalescing fun _ => none)) followed = some c ∧
      (outcomeOf c ⟨tenantA, 0⟩).isSome = true ∧ (outcomeOf c ⟨tenantA, 1⟩).isSome = true ∧
      BilledOnce c := by
  have hres : ((gateway greetingDeps).run (.init (.fresh coalescing fun _ => none)) followed).map
      (fun c => ((outcomeOf c ⟨tenantA, 0⟩).isSome, (outcomeOf c ⟨tenantA, 1⟩).isSome)) =
        some (true, true) := by
    decide +kernel
  obtain ⟨c, hrun, hc⟩ := Option.map_eq_some_iff.mp hres
  obtain ⟨hleader, hfollower⟩ := Prod.mk.inj hc
  exact ⟨c, hrun, hleader, hfollower, billedOnce_of_billable greetingDeps
    (Equiv.injective _) _ _ _ c hrun (by decide +kernel) (by decide +kernel)⟩

/-! ### A model without a price -/

/-- A model whose name is that of a property of every object. -/
def unpriced : List GatewayLabel :=
  .start ⟨tenantA, 0⟩ (.chat (greeting "constructor" none)) ::
    steps ⟨tenantA, 0⟩ ([Choice.nothing, .nothing, .nothing] ++
      calling (.ok (greeted "chatcmpl-1")) ++ [Choice.nothing])

/-- The provider has answered, the insert is refused, and no row is left. -/
theorem billedOnce_fails :
    ∃ c, (gateway plainDeps).run (.init (.fresh (fun _ => none) (fun _ => none))) unpriced =
        some c ∧
      (gateway plainDeps).Along Undisturbed (.init (.fresh (fun _ => none) (fun _ => none)))
        unpriced ∧ ¬BilledOnce c := by
  have hres : ((gateway plainDeps).run (.init (.fresh (fun _ => none) (fun _ => none)))
      unpriced).map (fun c => ((outcomeOf c ⟨tenantA, 0⟩).isSome, answersIn c.world.history,
        c.world.shared.usageRecords)) =
          some (true, [(⟨tenantA, 0⟩, (greeting "constructor" none).request,
            greeted "chatcmpl-1")], []) := by
    decide +kernel
  obtain ⟨c, hrun, hc⟩ := Option.map_eq_some_iff.mp hres
  obtain ⟨hend, hrest⟩ := Prod.mk.inj hc
  obtain ⟨hans, hrows⟩ := Prod.mk.inj hrest
  refine ⟨c, hrun, by decide +kernel, fun h => ?_⟩
  obtain ⟨row, -, hfilter, -⟩ := h.billed _ _ _ hend (hans ▸ List.mem_singleton_self _)
  rw [hrows] at hfilter
  cases hfilter

end CloudMesh.Gateway
