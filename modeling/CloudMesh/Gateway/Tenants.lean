import CloudMesh.Concurrent.Noninterference
import CloudMesh.Gateway.Confinement

/-!
# Tenants do not see each other

Row-level security, the keys and the channels keep the orgs apart, with two exceptions. The unique
index on `usage_records.request_id` is on the rows of all orgs while the ids are what a provider
answers: a row of one org with the id of another org's response suppresses that response's usage
record. And BullMQ numbers the jobs of all orgs in one sequence, so that the id which is noted in a
job's row tells how many jobs there have been. Without such a row and without a job before another
org's, deleting everything an org does from a run changes nothing that the other orgs can observe.

## Main definitions

- `Observation` — what an org can observe
- `Agree` — two stores that differ only in what belongs to one org
- `NoSharedId` — no usage record meets the id of the other org, and no job follows one of it
-/

namespace CloudMesh.Gateway

open Concurrent

/-! ## What an org can observe -/

/-- The replies to its requests, its rows, and the events that are written for it. -/
structure Observation where
  replies : ℕ → Option (Op × Option Outcome)
  usageRecords : List UsageRow
  jobs : List JobRow
  semanticCache : List CacheRow
  outbox : List OutboxEvent

def observation (A : OrgId) (c : GatewayConfig) : Observation where
  replies n := (c.procs ⟨A, n⟩).map fun P => (P.op, P.prog.returned)
  usageRecords := c.world.shared.usageRecords.filter fun row => row.params.orgId = A
  jobs := c.world.shared.jobs.filter fun row => row.orgId = A
  semanticCache := c.world.shared.semanticCache.filter fun row => row.orgId = A
  outbox := c.world.shared.outbox.filter fun event => event.orgId = A

/-! ## Stores that look alike -/

/-- `s'` is `s` without anything that belongs to `B`. -/
structure Agree (B : OrgId) (s s' : Store) : Prop where
  clock : s'.clock = s.clock
  redis : ∀ key, ¬KeyOf B key → s'.redis key = s.redis key
  published : ∀ channel, ¬ChannelOf B channel → s'.published channel = s.published channel
  organizations : s'.organizations = s.organizations
  billingPlans : s'.billingPlans = s.billingPlans
  usageRecords : s'.usageRecords = s.usageRecords.filter fun row => row.params.orgId ≠ B
  semanticCache : s'.semanticCache = s.semanticCache.filter fun row => row.orgId ≠ B
  jobs : s'.jobs = s.jobs.filter fun row => row.orgId ≠ B
  queue : s'.queue = s.queue.filter fun entry => entry.data.orgId ≠ B
  active : s'.active = s.active.filter fun entry => entry.data.orgId ≠ B
  outbox : s'.outbox = s.outbox.filter fun event => event.orgId ≠ B
  added : s'.added = s.added.filter fun orgId => orgId ≠ B
  drawn : s'.drawn ⊆ s.drawn

/-- The id of the usage record that the command is to insert. -/
def Cmd.requestId : Cmd → Option String
  | .insertUsage params (some _) => some params.requestId
  | _ => none

def Cmd.isQueueAdd : Cmd → Bool
  | .queueAdd .. => true
  | _ => false

/-- No row of `B` has the id that the command is to insert, and no job of `B` has been added to the
queue if the command adds one. -/
structure FreeOf (B : OrgId) (s : Store) (c : Cmd) : Prop where
  requestId : ∀ id ∈ c.requestId, ∀ row ∈ s.usageRecords, row.params.orgId = B →
    row.params.requestId ≠ id
  queue : c.isQueueAdd = true → B ∉ s.added

instance (B : OrgId) (s : Store) (c : Cmd) : Decidable (FreeOf B s c) :=
  decidable_of_iff ((∀ id ∈ c.requestId, ∀ row ∈ s.usageRecords, row.params.orgId = B →
    row.params.requestId ≠ id) ∧ (c.isQueueAdd = true → B ∉ s.added))
    ⟨fun h => ⟨h.1, h.2⟩, fun h => ⟨h.1, h.2⟩⟩

/-- Whenever another org records usage, no row of `B` has the same request id, and whenever it adds
a job to the queue, `B` has not added one. -/
def NoSharedId (B : OrgId) (c : GatewayConfig) : Action sig Pid Drift Op → Prop
  | .command e => e.pid.orgId ≠ B → FreeOf B c.world.shared e.cmd
  | .start .. | .drift _ => True

instance (B : OrgId) (c : GatewayConfig) (a : Action sig Pid Drift Op) :
    Decidable (NoSharedId B c a) :=
  match a with
  | .command e => inferInstanceAs (Decidable (e.pid.orgId ≠ B → FreeOf B c.world.shared e.cmd))
  | .start .. => isTrue trivial
  | .drift _ => isTrue trivial

section Agree

variable {B orgId : OrgId} {s s' s₁ : Store}

theorem agree_fresh (organizations : OrgId → Option OrgRow) (billingPlans : String → Option ℚ) :
    Agree B (.fresh organizations billingPlans) (.fresh organizations billingPlans) :=
  ⟨rfl, fun _ _ => rfl, fun _ _ => rfl, rfl, rfl, rfl, rfl, rfl, rfl, rfl, rfl, rfl, fun _ h => h⟩

/-- Selecting rows of one org does not need the rows of another one. -/
theorem filter_filter_of_imp {α : Type} {p q : α → Bool} (h : ∀ x, p x = true → q x = true)
    (l : List α) : (l.filter q).filter p = l.filter p := by
  rw [List.filter_filter]
  refine List.filter_congr fun x _ => ?_
  cases hp : p x with
  | false => rfl
  | true => rw [h x hp, Bool.and_self]

namespace Agree

/-! ### Redis -/

theorem value (h : Agree B s s') {key : String} (hkey : ¬KeyOf B key) :
    s'.value key = s.value key := by
  rw [Store.value, Store.value, h.redis key hkey]

theorem incremented (h : Agree B s s') {key : String} (hkey : ¬KeyOf B key) :
    s'.incremented key = s.incremented key := by
  rw [Store.incremented, Store.incremented, h.redis key hkey]

theorem expiry (h : Agree B s s') (ttlMs : ℕ) : s'.expiry ttlMs = s.expiry ttlMs := by
  rw [Store.expiry, Store.expiry, h.clock]

theorem setKey (h : Agree B s s') (key : String) (entry : Option Entry) :
    Agree B (s.setKey key entry) (s'.setKey key entry) := by
  refine { h with redis := fun k hk => ?_ }
  by_cases hkk : k = key
  · subst hkk
    simp [Store.setKey]
  · simp [Store.setKey, hkk, h.redis k hk]

theorem setKey_hidden (h : Agree B s s') {key : String} (entry : Option Entry)
    (hkey : KeyOf B key) : Agree B (s.setKey key entry) s' := by
  refine { h with redis := fun k hk => ?_ }
  have hkk : k ≠ key := fun heq => hk (heq ▸ hkey)
  simp [Store.setKey, hkk, h.redis k hk]

theorem publish (h : Agree B s s') {channel : String} (message : Option ChatResponse)
    (hch : ¬ChannelOf B channel) :
    Agree B
      { s with published := Function.update s.published channel (s.published channel ++ [message]) }
      { s' with published :=
        Function.update s'.published channel (s'.published channel ++ [message]) } := by
  refine { h with published := fun k hk => ?_ }
  by_cases hkk : k = channel
  · subst hkk
    simp [h.published k hk]
  · simp [hkk, h.published k hk]

theorem publish_hidden (h : Agree B s s') {channel : String} (messages : List (Option ChatResponse))
    (hch : ChannelOf B channel) :
    Agree B { s with published := Function.update s.published channel messages } s' := by
  refine { h with published := fun k hk => ?_ }
  have hkk : k ≠ channel := fun heq => hk (heq ▸ hch)
  simp [hkk, h.published k hk]

/-! ### Rows -/

theorem liveCache (h : Agree B s s') (ho : orgId ≠ B) (model : String) (ttlDays : ℕ) :
    s'.liveCache orgId model ttlDays = s.liveCache orgId model ttlDays := by
  rw [Store.liveCache, Store.liveCache, h.semanticCache, h.clock]
  refine filter_filter_of_imp (fun row hrow => ?_) _
  simp only [decide_eq_true_eq] at hrow ⊢
  exact hrow.1 ▸ ho

theorem jobsOf (h : Agree B s s') (ho : orgId ≠ B) : s'.jobsOf orgId = s.jobsOf orgId := by
  rw [Store.jobsOf, Store.jobsOf, h.jobs]
  refine filter_filter_of_imp (fun row hrow => ?_) _
  simp only [decide_eq_true_eq] at hrow ⊢
  exact hrow ▸ ho

theorem queueOf (h : Agree B s s') (ho : orgId ≠ B) : s'.queueOf orgId = s.queueOf orgId := by
  rw [Store.queueOf, Store.queueOf, h.queue, List.filterMap_filter]
  refine List.filterMap_congr fun entry _ => ?_
  by_cases he : entry.data.orgId = orgId
  · simp [he, ho]
  · simp [he]

theorem usageOf (h : Agree B s s') (ho : orgId ≠ B) (since : ℤ) :
    (s'.usageRecords.filter fun row => row.params.orgId = orgId ∧ since ≤ row.createdAt) =
      s.usageRecords.filter fun row => row.params.orgId = orgId ∧ since ≤ row.createdAt := by
  rw [h.usageRecords]
  refine filter_filter_of_imp (fun row hrow => ?_) _
  simp only [decide_eq_true_eq] at hrow ⊢
  exact hrow.1 ▸ ho

theorem hasUsage_iff (h : Agree B s s') {requestId : String}
    (hfree : ∀ row ∈ s.usageRecords, row.params.orgId = B → row.params.requestId ≠ requestId) :
    s'.hasUsage requestId ↔ s.hasUsage requestId := by
  unfold Store.hasUsage
  rw [h.usageRecords]
  constructor
  · rintro ⟨row, hrow, hid⟩
    exact ⟨row, List.mem_of_mem_filter hrow, hid⟩
  · rintro ⟨row, hrow, hid⟩
    have hne : row.params.orgId ≠ B := fun heq => hfree row hrow heq hid
    exact ⟨row, List.mem_filter.mpr ⟨hrow, decide_eq_true hne⟩, hid⟩

/-- As long as `B` has added no job, the others' jobs get the same numbers. -/
theorem nextBullJobId (h : Agree B s s') (hfree : B ∉ s.added) :
    s'.nextBullJobId = s.nextBullJobId := by
  have hall : s.added.filter (fun orgId => orgId ≠ B) = s.added := by
    refine List.filter_eq_self.mpr fun orgId hmem => ?_
    have hne : orgId ≠ B := fun heq => hfree (heq ▸ hmem)
    simpa using hne
  rw [Store.nextBullJobId, Store.nextBullJobId, h.added, hall]

/-- Ids are unique across orgs, so a row is written as long as `B` has not taken its id. -/
theorem insertUsage (h : Agree B s s') {params : RecordUsageParams} {costUsd : Option ℚ}
    (horg : params.orgId ≠ B) (hfree : FreeOf B s (.insertUsage params costUsd)) :
    (s'.insertUsage params costUsd).1 = (s.insertUsage params costUsd).1 ∧
      Agree B (s.insertUsage params costUsd).2 (s'.insertUsage params costUsd).2 := by
  unfold Store.insertUsage
  cases hcost : storedCost params.model params.requestId params.usage costUsd with
  | error message => exact ⟨rfl, h⟩
  | ok cost =>
    obtain rfl := eq_some_of_storedCost hcost
    have hiff := h.hasUsage_iff (hfree.requestId params.requestId rfl)
    by_cases hused : s.hasUsage params.requestId
    · simp only [if_pos hused, if_pos (hiff.mpr hused)]
      exact ⟨trivial, h⟩
    · simp only [if_neg hused, if_neg (mt hiff.mp hused)]
      exact ⟨trivial, { h with
        usageRecords := by simp [h.usageRecords, h.clock, horg]
        outbox := by simp [h.outbox, OutboxEvent.orgId, horg] }⟩

/-- Deleting rows of another org counts the same rows in both stores. -/
theorem deleteCache (h : Agree B s s') (ho : orgId ≠ B) {doomed : CacheRow → Bool}
    (hdoomed : ∀ row, doomed row = true → row.orgId = orgId) :
    s'.semanticCache.filter doomed = s.semanticCache.filter doomed ∧
      Agree B { s with semanticCache := s.semanticCache.filter fun row => !doomed row }
        { s' with semanticCache := s'.semanticCache.filter fun row => !doomed row } := by
  constructor
  · rw [h.semanticCache]
    refine filter_filter_of_imp (fun row hrow => ?_) _
    simpa [hdoomed row hrow] using ho
  · refine { h with semanticCache := ?_ }
    simp only [h.semanticCache]
    exact List.filter_comm _ _ _

/-- A change of one row of an org is not seen by another one. -/
theorem updateJob_hidden (h : Agree B s s') (id : Uuid) (update : JobUpdate) :
    Agree B (s.updateJob B id update).2 s' := by
  unfold Store.updateJob
  split
  · exact h
  · rename_i row hrow
    have horg : row.orgId = B := by
      simpa using (List.mem_filter.mp (List.mem_of_find?_eq_some hrow)).2
    refine { h with jobs := ?_, outbox := ?_ }
    · rw [h.jobs, List.filter_map]
      have hkeep : ((fun r : JobRow => decide (r.orgId ≠ B)) ∘ fun r =>
          if r.orgId = B ∧ r.id = id then update.apply s.clock r else r) =
          fun r => decide (r.orgId ≠ B) := by
        funext r
        by_cases hr : r.orgId = B ∧ r.id = id
        · simp [hr, JobUpdate.orgId_apply]
        · simp [hr]
      rw [hkeep]
      refine (List.map_id _).symm.trans (List.map_congr_left fun r hr => ?_)
      have hne : r.orgId ≠ B := by simpa using (List.mem_filter.mp hr).2
      simp [hne]
    · rw [h.outbox, List.filter_append]
      have hnone : (update.event row).toList.filter (fun event => event.orgId ≠ B) = [] := by
        refine List.filter_eq_nil_iff.mpr fun event hevent => ?_
        simp [JobUpdate.orgId_event (Option.mem_toList.mp hevent), horg]
      rw [hnone, List.append_nil]

theorem updateJob (h : Agree B s s') (ho : orgId ≠ B) (id : Uuid) (update : JobUpdate) :
    (s'.updateJob orgId id update).1 = (s.updateJob orgId id update).1 ∧
      Agree B (s.updateJob orgId id update).2 (s'.updateJob orgId id update).2 := by
  unfold Store.updateJob
  rw [h.jobsOf ho]
  cases hrow : (s.jobsOf orgId).find? fun row => row.id = id with
  | none => exact ⟨rfl, h⟩
  | some row =>
    have horg : row.orgId = orgId := by
      simpa using (List.mem_filter.mp (List.mem_of_find?_eq_some hrow)).2
    refine ⟨rfl, { h with jobs := ?_, outbox := ?_ }⟩
    · simp only [h.jobs, h.clock, List.filter_map]
      congr 2
      funext r
      by_cases hr : r.orgId = orgId ∧ r.id = id
      · simp [hr, JobUpdate.orgId_apply]
      · simp [hr]
    · simp only [h.outbox, List.filter_append]
      congr 1
      refine (List.filter_eq_self.mpr fun event hevent => ?_).symm
      simp [JobUpdate.orgId_event (Option.mem_toList.mp hevent), horg, ho]

end Agree

/-! ## Commands -/

variable {similarity : List ℚ → List ℚ → ℚ} {choice : Choice}

theorem erase_hidden {entry : QueueEntry} (entries : List QueueEntry) (h : entry.data.orgId = B) :
    (entries.filter fun e => e.data.orgId ≠ B) =
      (entries.erase entry).filter fun e => e.data.orgId ≠ B := by
  rw [← List.erase_filter, List.erase_of_not_mem]
  simp [h]

/-- No command of `B` changes what the others see. -/
theorem Agree.effect_hidden {c : Cmd} (h : Agree B s s') (hc : c.OwnedBy B)
    (hx : s.Effect c s₁) : Agree B s₁ s' := by
  cases hx with
  | same => exact h
  | draw id => exact { h with drawn := fun _ hx => List.mem_cons_of_mem _ (h.drawn hx) }
  | set => exact h.setKey_hidden _ (RedisValue.KeptAt.keyOf hc)
  | del =>
    obtain ⟨promptHash, rfl⟩ := hc
    exact h.setKey_hidden _ (keyOf_dedupKey B promptHash)
  | setNx | release | incr => exact h.setKey_hidden _ hc
  | publish => exact h.publish_hidden _ hc
  | insertUsage params cost =>
    have horg : params.orgId = B := hc
    exact { h with
      usageRecords := by simp [h.usageRecords, horg]
      outbox := by simp [h.outbox, OutboxEvent.orgId, horg] }
  | writeOutboxEvent event =>
    have horg : event.orgId = B := hc
    exact { h with outbox := by simp [h.outbox, horg] }
  | insertCache orgId =>
    obtain rfl : orgId = B := hc
    exact { h with semanticCache := by simp [h.semanticCache] }
  | deleteCache orgId keepModel =>
    obtain rfl : orgId = B := hc
    refine { h with semanticCache := ?_ }
    rw [h.semanticCache]
    refine (filter_filter_of_imp (fun row hrow => ?_) _).symm
    have hne : row.orgId ≠ orgId := of_decide_eq_true hrow
    simp [hne]
  | createJobRow id orgId =>
    obtain rfl : orgId = B := hc
    exact { h with
      jobs := by simp [h.jobs, Store.newJob]
      drawn := fun _ hx => List.mem_cons_of_mem _ (h.drawn hx) }
  | updateJob orgId id update =>
    obtain rfl : orgId = B := hc
    exact h.updateJob_hidden id update
  | queueAdd data priority =>
    have horg : data.orgId = B := hc
    exact { h with
      queue := by simp [h.queue, horg]
      added := by simp [h.added, horg] }
  | queueTake entry =>
    have horg : entry.data.orgId = B := hc
    exact { h with
      queue := h.queue.trans (erase_hidden s.queue horg)
      active := by simp [h.active, horg] }
  | queueComplete entry =>
    have horg : entry.data.orgId = B := hc
    exact { h with active := h.active.trans (erase_hidden s.active horg) }
  | queueFail entry =>
    have horg : entry.data.orgId = B := hc
    refine { h with active := h.active.trans (erase_hidden s.active horg), queue := ?_ }
    have hnone : entry.retried.toList.filter (fun e => e.data.orgId ≠ B) = [] :=
      List.filter_eq_nil_iff.mpr fun e he => by
        simp [QueueEntry.data_retried (Option.mem_toList.mp he), horg]
    rw [List.filter_append, hnone, List.append_nil]
    exact h.queue

/-- A command of another org does the same in both stores. -/
theorem Agree.perform {c : sig.Cmd} {r : sig.Ans c} (h : Agree B s s') (ho : orgId ≠ B)
    (hc : c.OwnedBy orgId) (hfree : FreeOf B s c)
    (hx : s.perform similarity c choice = some (r, s₁)) :
    ∃ s₁', s'.perform similarity c choice = some (r, s₁') ∧ Agree B s₁ s₁' := by
  have hkey : ∀ {key}, KeyOf orgId key → ¬KeyOf B key := fun hk hB => ho (hk.unique hB)
  have hch : ∀ {channel}, ChannelOf orgId channel → ¬ChannelOf B channel :=
    fun hk hB => ho (hk.unique hB)
  cases c with
  | dateNow =>
    cases hx
    exact ⟨s', by rw [Store.perform, h.clock], h⟩
  | sleep | recordProviderOutcome | publishJobProgress =>
    cases hx
    exact ⟨s', rfl, h⟩
  | random | evalAttempt | evalReport | hgetState | getProviderStats | embed | chat
  | streamOpen | streamRest =>
    cases choice <;> cases hx
    exact ⟨s', rfl, h⟩
  | randomUUID =>
    cases choice with
    | id id =>
      simp only [Store.perform] at hx ⊢
      split at hx <;> cases hx
      rename_i hnot
      -- an id that is new in the one store is new in the other, which has drawn fewer
      refine ⟨_, if_neg fun hmem => hnot (h.drawn hmem), ?_⟩
      exact { h with drawn := List.cons_subset_cons _ h.drawn }
    | _ => cases hx
  | redisGet key =>
    cases hx
    exact ⟨s', by rw [Store.perform, h.value (hkey hc)], h⟩
  | redisMGet keys =>
    cases hx
    refine ⟨s', ?_, h⟩
    rw [Store.perform, List.map_congr_left fun key hk => h.value (hkey (hc key hk))]
  | redisSet key value ttlMs =>
    cases hx
    exact ⟨_, rfl, h.expiry ttlMs ▸ h.setKey key _⟩
  | redisSetNx key value ttlMs =>
    simp only [Store.perform, h.redis key (hkey hc)] at hx ⊢
    split at hx <;> cases hx
    · exact ⟨s', rfl, h⟩
    · exact ⟨_, rfl, h.expiry ttlMs ▸ h.setKey key _⟩
  | redisDel key =>
    cases hx
    exact ⟨_, rfl, h.setKey key none⟩
  | redisIncr key =>
    simp only [Store.perform, h.incremented (hkey hc)] at hx ⊢
    split at hx <;> cases hx
    · exact ⟨_, rfl, h.setKey key _⟩
    · exact ⟨s', rfl, h⟩
  | evalRelease key token =>
    simp only [Store.perform, h.redis key (hkey hc)] at hx ⊢
    split at hx <;> cases hx
    · refine ⟨_, rfl, ?_⟩
      split
      · exact h.setKey key none
      · exact h
    · exact ⟨s', rfl, h⟩
  | publish channel message =>
    cases hx
    exact ⟨_, rfl, h.publish message (hch hc)⟩
  | subscribe channel =>
    cases hx
    exact ⟨s', by rw [Store.perform, h.published channel (hch hc)], h⟩
  | awaitMessage channel since =>
    cases choice with
    | message index =>
      cases index with
      | none =>
        cases hx
        exact ⟨s', rfl, h⟩
      | some i =>
        simp only [Store.perform, h.published channel (hch hc)] at hx ⊢
        split at hx <;> cases hx
        exact ⟨s', rfl, h⟩
    | _ => cases hx
  | findOrganization id =>
    cases hx
    exact ⟨s', by rw [Store.perform, h.organizations], h⟩
  | findBillingPlan planTier =>
    cases hx
    exact ⟨s', by rw [Store.perform, h.billingPlans], h⟩
  | sumUsage id since =>
    obtain rfl : id = orgId := hc
    cases hx
    exact ⟨s', by rw [Store.perform, h.usageOf ho], h⟩
  | insertUsage params costUsd =>
    have horg : params.orgId ≠ B := fun heq => ho (hc.symm.trans heq)
    obtain ⟨hanswer, hagree⟩ := h.insertUsage horg hfree
    have hinsert : s.insertUsage params costUsd = (r, s₁) := Option.some.inj hx
    rw [hinsert] at hanswer hagree
    exact ⟨(s'.insertUsage params costUsd).2, congrArg some (Prod.ext hanswer rfl), hagree⟩
  | writeOutboxEvent event =>
    have horg : event.orgId ≠ B := fun heq => ho (hc.symm.trans heq)
    cases hx
    exact ⟨_, rfl, { h with outbox := by simp [h.outbox, horg] }⟩
  | findExact id model promptHash ttlDays =>
    obtain rfl : id = orgId := hc
    cases hx
    exact ⟨s', by rw [Store.perform, h.liveCache ho], h⟩
  | findNearest id model embedding ttlDays =>
    obtain rfl : id = orgId := hc
    cases choice with
    | index i =>
      cases hx
      exact ⟨s', by rw [Store.perform, h.liveCache ho], h⟩
    | _ => cases hx
  | insertCache id model promptHash embedding response =>
    obtain rfl : id = orgId := hc
    cases hx
    exact ⟨_, rfl, { h with semanticCache := by simp [h.semanticCache, h.clock, ho] }⟩
  | deleteCache id keepModel =>
    obtain rfl : id = orgId := hc
    cases hx
    -- the answer is the number of the rows that go, and these are all of the org
    obtain ⟨hdoomed, hagree⟩ := h.deleteCache ho
      fun row (hrow : decide (row.orgId = id ∧ some row.model ≠ keepModel) = true) =>
        (of_decide_eq_true hrow).1
    exact ⟨_, by rw [Store.perform, hdoomed], hagree⟩
  | createJobRow id apiKeyId payload priority =>
    obtain rfl : id = orgId := hc
    cases choice with
    | id jobId =>
      simp only [Store.perform] at hx ⊢
      split at hx <;> cases hx
      rename_i hnot
      refine ⟨_, if_neg fun hmem => hnot (h.drawn hmem), ?_⟩
      exact { h with
        jobs := by simp [h.jobs, Store.newJob, h.clock, ho]
        drawn := List.cons_subset_cons _ h.drawn }
    | _ => cases hx
  | findJob id jobId =>
    obtain rfl : id = orgId := hc
    cases hx
    exact ⟨s', by rw [Store.perform, h.jobsOf ho], h⟩
  | findJobs id status take =>
    obtain rfl : id = orgId := hc
    cases hx
    exact ⟨s', by rw [Store.perform, h.jobsOf ho], h⟩
  | updateJob id jobId update =>
    obtain rfl : id = orgId := hc
    obtain ⟨hfound, hagree⟩ := h.updateJob ho jobId update
    cases hx
    exact ⟨_, by rw [Store.perform, hfound], hagree⟩
  | queueAdd data priority =>
    have horg : data.orgId ≠ B := fun heq => ho (hc.symm.trans heq)
    have hnext := h.nextBullJobId (hfree.queue rfl)
    cases hx
    refine ⟨{ s' with
      queue := s'.queue ++ [⟨s.nextBullJobId, data, priority, 0⟩]
      added := data.orgId :: s'.added }, by simp only [Store.perform, hnext], { h with
      queue := ?_
      added := ?_ }⟩
    · simp [h.queue, horg]
    · simp [h.added, horg]
  | queueTake id =>
    obtain rfl : id = orgId := hc
    cases choice with
    | index i =>
      simp only [Store.perform, h.queueOf ho] at hx ⊢
      split at hx <;> cases hx
      rename_i entry _
      have horg : entry.1.data.orgId ≠ B := fun heq => ho (entry.2.symm.trans heq)
      exact ⟨_, rfl, { h with
        queue := by rw [h.queue, List.erase_filter]
        active := by simp [h.active, horg] }⟩
    | _ => cases hx
  | queueComplete entry =>
    cases hx
    exact ⟨_, rfl, { h with active := by rw [h.active, List.erase_filter] }⟩
  | queueFail entry =>
    have horg : entry.data.orgId ≠ B := fun heq => ho (hc.symm.trans heq)
    cases hx
    refine ⟨_, rfl, { h with active := by rw [h.active, List.erase_filter], queue := ?_ }⟩
    simp only [h.queue, List.filter_append]
    congr 1
    -- the entry is put back for the org that it was of
    refine (List.filter_eq_self.mpr fun e he => ?_).symm
    simp [QueueEntry.data_retried (Option.mem_toList.mp he), horg]

theorem Agree.exec {p : Pid} {c : sig.Cmd} {i : Input} {r : sig.Ans c} (h : Agree B s s')
    (hp : p.orgId ≠ B) (hc : c.OwnedBy p.orgId) (hfree : FreeOf B s c)
    (hx : exec similarity p c i s = some (r, s₁)) :
    ∃ s₁', exec similarity p c i s' = some (r, s₁') ∧ Agree B s₁ s₁' := by
  unfold Gateway.exec at hx ⊢
  cases hi : i.fault with
  | none =>
    rw [hi] at hx
    exact h.perform hp hc hfree hx
  | some fault =>
    obtain ⟨err, applied⟩ := fault
    simp only [hi] at hx ⊢
    split at hx
    · cases hx
    · split at hx
      · obtain ⟨out, hout, heq⟩ := Option.map_eq_some_iff.mp hx
        cases heq
        obtain ⟨s₁', hs', hagree⟩ := h.perform hp hc hfree hout
        exact ⟨s₁', by simp [*], hagree⟩
      · cases hx
        exact ⟨s', by simp [*], h⟩

theorem Agree.drift {e : Drift} (h : Agree B s s') (hx : Gateway.drift e s = some s₁) :
    ∃ s₁', Gateway.drift e s' = some s₁' ∧ Agree B s₁ s₁' := by
  cases e with
  | tick d =>
    cases hx
    refine ⟨_, rfl, { h with clock := by simp [h.clock], redis := fun key hkey => ?_ }⟩
    simp [h.redis key hkey, h.clock]
  | setOrganization orgId row =>
    cases hx
    exact ⟨_, rfl, { h with organizations := by simp [h.organizations] }⟩
  | setBillingPlan planTier budget =>
    cases hx
    exact ⟨_, rfl, { h with billingPlans := by simp [h.billingPlans] }⟩

end Agree

/-! ## Runs -/

variable (deps : Deps) (B : OrgId)

theorem unwinding : Unwinding (gateway deps) (fun p => p.orgId = B) (Agree B)
    (fun p => Cmd.OwnedBy p.orgId) (NoSharedId B) where
  code p op := handler_confined p.orgId deps op
  respects {p} _ _ _ _ _ _ hp hc h hx := h.effect_hidden (hp ▸ hc) (effect_of_exec (p := p) hx)
  consistent hp hc h hx ha := h.exec hp hc (ha hp) hx
  drift h hx := h.drift hx

theorem filter_org_eq {A : OrgId} {α : Type} {org : α → OrgId} {l l' : List α} (hA : A ≠ B)
    (h : l' = l.filter fun x => org x ≠ B) :
    (l'.filter fun x => org x = A) = l.filter fun x => org x = A := by
  rw [h]
  refine filter_filter_of_imp (fun x hx => ?_) _
  simp only [decide_eq_true_eq] at hx ⊢
  exact hx ▸ hA

theorem SameView.observation_eq {A : OrgId} {c c' : GatewayConfig} (hA : A ≠ B)
    (h : SameView (fun p : Pid => p.orgId = B) (Agree B) c c') :
    observation A c' = observation A c := by
  have hreplies : (observation A c').replies = (observation A c).replies := by
    funext n
    have hview := congrArg (Option.map fun v : Op × Program sig Outcome => (v.1, v.2.returned))
      (h.procs ⟨A, n⟩ hA)
    rw [Option.map_map, Option.map_map] at hview
    exact hview
  have hstore := h.shared
  simp only [observation] at hreplies ⊢
  rw [hreplies, filter_org_eq B hA hstore.usageRecords, filter_org_eq B hA hstore.jobs,
    filter_org_eq B hA hstore.semanticCache, filter_org_eq B hA hstore.outbox]

/-- Deleting everything that `B` does leaves what the others observe of a run as it is. -/
def Noninterfering (s : Store) (ls : List GatewayLabel) : Prop :=
  ∀ d, (gateway deps).run (.init s) ls = some d →
    ∃ d', (gateway deps).run (.init s) (purge (fun p => p.orgId = B) ls) = some d' ∧
      ∀ A, A ≠ B → observation A d' = observation A d

/-- Nobody interferes with the others in a run in which no usage record of theirs meets a row of
`B` with the same request id, and no job of theirs follows one of `B`. -/
theorem noninterfering_of_noSharedId (organizations : OrgId → Option OrgRow)
    (billingPlans : String → Option ℚ) (ls : List GatewayLabel)
    (hal : (gateway deps).Along (NoSharedId B) (.init (.fresh organizations billingPlans)) ls) :
    Noninterfering deps B (.fresh organizations billingPlans) ls := by
  intro d hrun
  have hsame : SameView (fun p : Pid => p.orgId = B) (Agree B)
      (Config.init (.fresh organizations billingPlans) : GatewayConfig)
      (.init (.fresh organizations billingPlans)) :=
    ⟨agree_fresh organizations billingPlans, rfl, fun _ _ => rfl⟩
  have hinit : Unwinding.Confined (fun p : Pid => Cmd.OwnedBy p.orgId)
      (Config.init (.fresh organizations billingPlans) : GatewayConfig) := by
    intro p P hp
    cases hp
  obtain ⟨d', hd', hview⟩ := (unwinding deps B).run hinit hsame hrun hal
  exact ⟨d', hd', fun A hA => SameView.observation_eq B hA hview⟩

/-- A request of one org from its start to its usage record. -/
def greet (orgId : OrgId) (id : String) : List GatewayLabel :=
  .start ⟨orgId, 0⟩ (.chat (greeting "gpt-4o-mini" none)) ::
    steps ⟨orgId, 0⟩ ([Choice.nothing, .nothing, .nothing] ++ calling (.ok (greeted id)) ++
      [Choice.nothing])

theorem noninterfering_of_noSharedId_greet :
    Noninterfering plainDeps tenantB (.fresh (fun _ => none) (fun _ => none))
      (greet tenantB "chatcmpl-1" ++ greet tenantA "chatcmpl-2") :=
  noninterfering_of_noSharedId plainDeps tenantB _ _ _ (by decide +kernel)

/-- A response of one org that has the id of another org's response is not billed. -/
theorem noninterfering_fails :
    ¬Noninterfering plainDeps tenantB (.fresh (fun _ => none) (fun _ => none))
      (greet tenantB "chatcmpl-1" ++ greet tenantA "chatcmpl-1") := by
  intro h
  have hwith : ((gateway plainDeps).run (.init (.fresh (fun _ => none) (fun _ => none)))
      (greet tenantB "chatcmpl-1" ++ greet tenantA "chatcmpl-1")).map
        (fun d => (observation tenantA d).usageRecords.length) = some 0 := by decide +kernel
  have hwithout : ((gateway plainDeps).run (.init (.fresh (fun _ => none) (fun _ => none)))
      (purge (fun p => p.orgId = tenantB)
        (greet tenantB "chatcmpl-1" ++ greet tenantA "chatcmpl-1"))).map
        (fun d => (observation tenantA d).usageRecords.length) = some 1 := by decide +kernel
  obtain ⟨d, hd, hlen⟩ := Option.map_eq_some_iff.mp hwith
  obtain ⟨d', hd', hobs⟩ := h d hd
  rw [hd', Option.map_some, hobs tenantA (by decide), hlen] at hwithout
  exact absurd hwithout (by decide)

end CloudMesh.Gateway
