import CloudMesh.Concurrent.Transcript
import CloudMesh.Errors
import CloudMesh.Tenant
import Mathlib.Data.List.Nodup

/-!
# Revocation of API keys

`resolveApiKey` of `packages/auth` reads keys through a cache that `revokeApiKey` of `apps/api`
clears after it has deactivated the row. A lookup that has read the row before that and fills the
cache after the delete undoes the revocation for the time to live of the entry. A revocation is
immediate in the runs in which no lookup is between its read of the active row and its fill when
the revocation's delete executes. The update of `last_used_at`, which nobody waits for, is left out.

## Main definitions

- `KeyTable` — the rows of `api_keys` with their unique indexes
- `keyService` — the system
- `RefillsDone` — the condition on steps
-/

namespace CloudMesh.Auth.ApiKeys

open Concurrent

structure ApiKeyRow where
  id : Uuid
  orgId : OrgId
  keyHash : String
  keyPrefix : String
  scopes : List String
  isActive : Bool
  rateLimitRpm : ℕ
  deriving DecidableEq

structure ApiKeyContext where
  apiKeyId : Uuid
  orgId : OrgId
  scopes : List String
  rateLimitRpm : ℕ
  deriving DecidableEq

/-- What `lookup_api_key_by_hash` exposes of a row. -/
structure LookupRow where
  id : Uuid
  orgId : OrgId
  scopes : List String
  isActive : Bool
  rateLimitRpm : ℕ
  deriving DecidableEq

/-- An outbox event with its payload. -/
structure KeyEvent where
  eventType : String
  orgId : OrgId
  apiKeyId : Uuid
  keyPrefix : String
  deriving DecidableEq

def ApiKeyRow.deactivated (row : ApiKeyRow) : ApiKeyRow := { row with isActive := false }

structure KeyTable where
  rows : List ApiKeyRow
  id_nodup : (rows.map ApiKeyRow.id).Nodup
  keyHash_nodup : (rows.map ApiKeyRow.keyHash).Nodup

namespace KeyTable

def empty : KeyTable := ⟨[], List.nodup_nil, List.nodup_nil⟩

def lookupApiKeyByHash (table : KeyTable) (keyHash : String) : List LookupRow :=
  (table.rows.filter fun row => row.keyHash = keyHash).map fun row =>
    ⟨row.id, row.orgId, row.scopes, row.isActive, row.rateLimitRpm⟩

/-- The update of `is_active` under the row-level security of `orgId`. -/
def deactivateRow (orgId : OrgId) (keyId : Uuid) (row : ApiKeyRow) : ApiKeyRow :=
  if row.id = keyId ∧ row.orgId = orgId then row.deactivated else row

theorem deactivateRow_id (orgId : OrgId) (keyId : Uuid) (row : ApiKeyRow) :
    (deactivateRow orgId keyId row).id = row.id := by
  unfold deactivateRow
  split_ifs <;> rfl

theorem deactivateRow_keyHash (orgId : OrgId) (keyId : Uuid) (row : ApiKeyRow) :
    (deactivateRow orgId keyId row).keyHash = row.keyHash := by
  unfold deactivateRow
  split_ifs <;> rfl

/-- The row as updated and the new table, or `none` if the org has no such row. -/
def deactivate (table : KeyTable) (orgId : OrgId) (keyId : Uuid) : Option (ApiKeyRow × KeyTable) :=
  (table.rows.find? fun row => row.id = keyId ∧ row.orgId = orgId).map fun row =>
    (row.deactivated,
      { rows := table.rows.map (deactivateRow orgId keyId)
        id_nodup := by
          simpa only [List.map_map, Function.comp_def, deactivateRow_id] using table.id_nodup
        keyHash_nodup := by
          simpa only [List.map_map, Function.comp_def, deactivateRow_keyHash] using
            table.keyHash_nodup })

/-- `none` if a unique index has the row's id or hash already. -/
def insert (table : KeyTable) (row : ApiKeyRow) : Option KeyTable :=
  if h : row.id ∉ table.rows.map ApiKeyRow.id ∧ row.keyHash ∉ table.rows.map ApiKeyRow.keyHash then
    some ⟨row :: table.rows, List.nodup_cons.mpr ⟨h.1, table.id_nodup⟩,
      List.nodup_cons.mpr ⟨h.2, table.keyHash_nodup⟩⟩
  else none

/-- The row of the key is inactive. -/
def Inactive (keyHash : String) (table : KeyTable) : Prop :=
  ∃ row ∈ table.rows, row.keyHash = keyHash ∧ row.isActive = false

variable {table table' : KeyTable} {keyHash : String} {orgId : OrgId} {keyId : Uuid}
  {row : ApiKeyRow}

theorem Inactive.deactivate (h : Inactive keyHash table)
    (hd : table.deactivate orgId keyId = some (row, table')) : Inactive keyHash table' := by
  obtain ⟨r, hr, hhash, hinactive⟩ := h
  obtain ⟨found, -, heq⟩ := Option.map_eq_some_iff.mp hd
  cases heq
  refine ⟨deactivateRow orgId keyId r, List.mem_map_of_mem hr, ?_, ?_⟩
  · rw [deactivateRow_keyHash, hhash]
  · unfold deactivateRow
    split_ifs
    · rfl
    · exact hinactive

/-- The row that was updated is inactive. -/
theorem inactive_of_deactivate (hd : table.deactivate orgId keyId = some (row, table')) :
    Inactive row.keyHash table' := by
  obtain ⟨found, hfind, heq⟩ := Option.map_eq_some_iff.mp hd
  have hmem := List.mem_of_find?_eq_some hfind
  have hkey : found.id = keyId ∧ found.orgId = orgId := by simpa using List.find?_some hfind
  cases heq
  refine ⟨deactivateRow orgId keyId found, List.mem_map_of_mem hmem, ?_, ?_⟩
  · rw [deactivateRow_keyHash]
    rfl
  · rw [deactivateRow, if_pos hkey]
    rfl

theorem Inactive.insert (h : Inactive keyHash table) (hi : table.insert row = some table') :
    Inactive keyHash table' := by
  obtain ⟨r, hr, hkey⟩ := h
  unfold KeyTable.insert at hi
  split_ifs at hi
  cases hi
  exact ⟨r, List.mem_cons_of_mem _ hr, hkey⟩

/-- The unique index leaves no other row of the key to be found. -/
theorem Inactive.isActive_of_mem {record : LookupRow} (h : Inactive keyHash table)
    (hrec : record ∈ table.lookupApiKeyByHash keyHash) : record.isActive = false := by
  obtain ⟨r, hr, hhash, hinactive⟩ := h
  obtain ⟨r', hr', rfl⟩ := List.mem_map.mp hrec
  obtain ⟨hmem, hhash'⟩ := List.mem_filter.mp hr'
  have heq : r' = r := List.inj_on_of_nodup_map table.keyHash_nodup hmem hr
    ((of_decide_eq_true hhash').trans hhash.symm)
  rw [heq]
  exact hinactive

end KeyTable

/-! ## The system -/

def cacheTtlSeconds : ℕ := 300

def apiKeyCacheKey (keyHash : String) : String := "auth:" ++ keyHash

theorem apiKeyCacheKey_injective : Function.Injective apiKeyCacheKey := by
  intro s t hst
  simpa [apiKeyCacheKey] using hst

inductive Cmd
  | redisGet (key : String)
  | redisSet (key : String) (entry : ApiKeyContext) (ttlSeconds : ℕ)
  | redisDel (key : String)
  | lookupApiKeyByHash (keyHash : String)
  | deactivate (orgId : OrgId) (keyId : Uuid)
  deriving DecidableEq

abbrev sig : Signature where
  Cmd := Cmd
  Ans
    | .redisGet _ => Option ApiKeyContext
    | .redisSet .. => Unit
    | .redisDel _ => ℕ
    | .lookupApiKeyByHash _ => List LookupRow
    | .deactivate .. => Option ApiKeyRow

/-- A cached context and the clock at which it expires. -/
structure Entry where
  context : ApiKeyContext
  expireAt : ℤ

/-- Redis with its clock, and the tables. -/
structure Store where
  clock : ℤ
  redis : String → Option Entry
  apiKeys : KeyTable
  outbox : List KeyEvent

def Store.set (s : Store) (key : String) (entry : Option Entry) : Store :=
  { s with redis := Function.update s.redis key entry }

@[simp] theorem Store.set_redis_self (s : Store) (key : String) (entry : Option Entry) :
    (s.set key entry).redis key = entry := Function.update_self ..

theorem Store.set_redis_of_ne (s : Store) {key other : String} (entry : Option Entry)
    (h : other ≠ key) : (s.set key entry).redis other = s.redis other :=
  Function.update_of_ne h ..

abbrev Pid := ℕ

/-- The update of the row and its outbox event are one transaction. -/
def exec (_ : Pid) (c : sig.Cmd) (_ : Unit) (s : Store) : Option (sig.Ans c × Store) :=
  match c with
  | .redisGet key => some ((s.redis key).map Entry.context, s)
  | .redisSet key entry ttlSeconds =>
    some ((), s.set key (some ⟨entry, s.clock + ttlSeconds * 1000⟩))
  | .redisDel key => some (if (s.redis key).isSome then 1 else 0, s.set key none)
  | .lookupApiKeyByHash keyHash => some (s.apiKeys.lookupApiKeyByHash keyHash, s)
  | .deactivate orgId keyId =>
    match s.apiKeys.deactivate orgId keyId with
    | none => some (none, s)
    | some (row, apiKeys) => some (some row,
        { s with
          apiKeys := apiKeys
          outbox := s.outbox ++ [⟨"api_key.revoked", orgId, row.id, row.keyPrefix⟩] })

/-- Time passes, or a key is created. -/
inductive Drift
  | tick (d : ℕ)
  | createApiKey (row : ApiKeyRow)

def drift : Drift → Store → Option Store
  | .tick d, s => some { s with
      clock := s.clock + d
      redis := fun key => (s.redis key).filter fun entry => s.clock + d < entry.expireAt }
  | .createApiKey row, s =>
    (s.apiKeys.insert row).map fun apiKeys => { s with
      apiKeys := apiKeys
      outbox := s.outbox ++ [⟨"api_key.created", row.orgId, row.id, row.keyPrefix⟩] }

inductive Op
  | resolveApiKey (rawKey : String)
  | revokeApiKey (orgId : OrgId) (keyId : Uuid)

inductive Result
  | resolved (context : Option ApiKeyContext)
  | revoked
  deriving DecidableEq

/-- Issue one command; no command fails here. -/
def command (c : sig.Cmd) : Handler sig Thrown (sig.Ans c) := Handler.call c

section Code

variable (hashApiKey : String → String)

def resolveApiKey (rawKey : String) : Handler sig Thrown (Option ApiKeyContext) := do
  let keyHash := hashApiKey rawKey
  let cacheKey := apiKeyCacheKey keyHash
  let cached ← command (.redisGet cacheKey)
  match cached with
  | some entry => pure (some entry)
  | none =>
    let rows ← command (.lookupApiKeyByHash keyHash)
    match rows with
    | [] => pure none
    | record :: _ =>
      if record.isActive = false then pure none
      else
        let entry : ApiKeyContext :=
          ⟨record.id, record.orgId, record.scopes, record.rateLimitRpm⟩
        command (.redisSet cacheKey entry cacheTtlSeconds)
        pure (some entry)

def revokeApiKey (orgId : OrgId) (keyId : Uuid) : Handler sig Thrown Unit := do
  let revoked ← command (.deactivate orgId keyId)
  match revoked with
  | none => throw (.app (notFoundError "API key not found"))
  | some revoked =>
    let _ ← command (.redisDel (apiKeyCacheKey revoked.keyHash))
    pure ()

def code (_ : Pid) : Op → Program sig (Except Thrown Result)
  | .resolveApiKey rawKey => (do
      let context ← resolveApiKey hashApiKey rawKey
      pure (.resolved context) : Handler sig Thrown Result).run
  | .revokeApiKey orgId keyId => (do
      revokeApiKey orgId keyId
      pure .revoked : Handler sig Thrown Result).run

def keyService : System sig Pid Store Unit Drift Op (Except Thrown Result) where
  exec := exec
  drift := drift
  code := code hashApiKey

end Code

/-! ## What the processes do -/

abbrev KeyWorld := World sig Pid Store

abbrev KeyServiceEvent := Event sig Pid

abbrev KeyConfig := Config sig Pid Store Op (Except Thrown Result)

abbrev KeyLabel := Label Pid Unit Drift Op

section Rules

variable (hashApiKey : String → String)

/-- The process has read the row of the key as active. -/
def ReadActive (keyHash : String) (t : Transcript sig) : Prop :=
  ∃ record rows, ⟨.lookupApiKeyByHash keyHash, record :: rows⟩ ∈ t ∧ record.isActive = true

/-- What a process has done when it issues a command. -/
def Rule (_ : Pid) : Op → Transcript sig → Cmd → Prop
  | .resolveApiKey rawKey, t, .redisSet key _ _ =>
    (key = apiKeyCacheKey (hashApiKey rawKey) ∧ ReadActive (hashApiKey rawKey) t) ∧
      ∀ key entry ttlSeconds, ⟨.redisSet key entry ttlSeconds, ()⟩ ∉ t
  | .revokeApiKey orgId keyId, t, .redisDel key =>
    ∃ row, ⟨.deactivate orgId keyId, some row⟩ ∈ t ∧ key = apiKeyCacheKey row.keyHash
  | .resolveApiKey _, _, .redisDel _ | .revokeApiKey .., _, .redisSet .. => False
  | _, _, _ => True

/-- A resolution returns what it has read; a revocation that has changed a row has cleared the
cache. -/
def Finished (_ : Pid) : Op → Except Thrown Result → Transcript sig → Prop
  | .resolveApiKey rawKey, r, t => ∃ context, r = .ok (.resolved context) ∧
      (context.isSome → ReadActive (hashApiKey rawKey) t ∨
        ∃ entry, ⟨.redisGet (apiKeyCacheKey (hashApiKey rawKey)), some entry⟩ ∈ t)
  | .revokeApiKey orgId keyId, _, t => ∀ row, ⟨.deactivate orgId keyId, some row⟩ ∈ t →
      ∃ n, ⟨.redisDel (apiKeyCacheKey row.keyHash), n⟩ ∈ t

theorem obeys : (keyService hashApiKey).Obeys (Rule hashApiKey) (Finished hashApiKey) := by
  intro p op
  cases op with
  | resolveApiKey rawKey =>
    simp only [keyService, code, resolveApiKey, bind_assoc]
    refine Handler.follows_call_bind trivial fun cached => ?_
    cases cached with
    | some entry => exact ⟨some entry, rfl, fun _ => .inr ⟨entry, by simp⟩⟩
    | none =>
      simp only [bind_assoc]
      refine Handler.follows_call_bind trivial fun rows => ?_
      cases rows with
      | nil => exact ⟨none, rfl, nofun⟩
      | cons record rows =>
        simp only
        split_ifs with hactive
        · exact ⟨none, rfl, nofun⟩
        · have hread : record.isActive = true := by simpa using hactive
          simp only [bind_assoc]
          refine Handler.follows_call_bind
            ⟨⟨rfl, record, rows, by simp, hread⟩, by simp⟩ fun _ => ?_
          exact ⟨_, rfl, fun _ => .inl ⟨record, rows, by simp, hread⟩⟩
  | revokeApiKey orgId keyId =>
    simp only [keyService, code, revokeApiKey, bind_assoc]
    refine Handler.follows_call_bind trivial fun revoked => ?_
    cases revoked with
    | none =>
      show ∀ row, _ ∈ _ → _
      simp
    | some revoked =>
      simp only [bind_assoc]
      refine Handler.follows_call_bind ⟨revoked, by simp, rfl⟩ fun n => ?_
      show ∀ row, _ ∈ _ → _
      intro row hrow
      simp only [List.mem_cons, Sigma.mk.injEq, reduceCtorEq, false_and, false_or,
        List.not_mem_nil, or_false, heq_eq_eq, true_and, Option.some.injEq] at hrow
      exact ⟨n, hrow ▸ List.mem_cons_self⟩

end Rules

/-! ## Immediate revocation -/

/-- The event reads the row of the key as active. -/
def FindsActive (keyHash : String) : KeyServiceEvent → Prop
  | ⟨_, .lookupApiKeyByHash key, record :: _⟩ => key = keyHash ∧ record.isActive = true
  | _ => False

/-- The event finds a cache entry of the key. -/
def Hits (keyHash : String) : KeyServiceEvent → Prop
  | ⟨_, .redisGet key, some _⟩ => key = apiKeyCacheKey keyHash
  | _ => False

/-- The event fills the cache entry of the key. -/
def Fills (keyHash : String) : KeyServiceEvent → Prop
  | ⟨_, .redisSet key _ _, _⟩ => key = apiKeyCacheKey keyHash
  | _ => False

/-- `q` has cleared the cache entry of the key. -/
def Cleared (keyHash : String) (q : Pid) (h : List KeyServiceEvent) : Prop :=
  ∃ e ∈ h, e.pid = q ∧ e.cmd = .redisDel (apiKeyCacheKey keyHash)

/-- Every process that has read the key as active has filled the cache. -/
def AllFilled (keyHash : String) (h : List KeyServiceEvent) : Prop :=
  ∀ e ∈ h, FindsActive keyHash e → ∃ e' ∈ h, e'.pid = e.pid ∧ Fills keyHash e'

/-- When the step is the delete of `q`, nobody is between a read of the key as active and the fill
of the cache. -/
def RefillsDone (keyHash : String) (q : Pid) (w : KeyWorld) : Action sig Pid Drift Op → Prop
  | .command ⟨p, .redisDel key, _⟩ => p = q → key = apiKeyCacheKey keyHash →
      AllFilled keyHash w.history
  | _ => True

/-- `q` has deactivated the row of the key and returned. -/
def HasRevoked (keyHash : String) (c : KeyConfig) (q : Pid) : Prop :=
  ∃ Q orgId keyId row, c.procs q = some Q ∧ Q.op = .revokeApiKey orgId keyId ∧
    (∃ r, Q.prog = .done r) ∧ ⟨q, .deactivate orgId keyId, some row⟩ ∈ c.world.history ∧
      row.keyHash = keyHash

section Decidable

variable {keyHash : String} {q : Pid} {h : List KeyServiceEvent}

instance (e : KeyServiceEvent) : Decidable (FindsActive keyHash e) := by
  unfold FindsActive
  split <;> infer_instance

instance (e : KeyServiceEvent) : Decidable (Fills keyHash e) := by
  unfold Fills
  split <;> infer_instance

instance : Decidable (AllFilled keyHash h) :=
  inferInstanceAs (Decidable (∀ e ∈ h, _ → ∃ e' ∈ h, _ ∧ _))

instance (w : KeyWorld) : (a : Action sig Pid Drift Op) → Decidable (RefillsDone keyHash q w a)
  | .command ⟨p, .redisDel key, _⟩ =>
    inferInstanceAs (Decidable (p = q → key = apiKeyCacheKey keyHash → _))
  | .command ⟨_, .redisGet _, _⟩ | .command ⟨_, .redisSet .., _⟩
  | .command ⟨_, .lookupApiKeyByHash _, _⟩ | .command ⟨_, .deactivate .., _⟩
  | .start .. | .drift _ => isTrue trivial

end Decidable

/-- What holds once `q` has cleared the cache: nothing refills it, and nobody is let in. -/
structure StaysRevoked (keyHash : String) (q : Pid) (w : KeyWorld) : Prop where
  deactivated : ∀ p orgId keyId row, ⟨p, .deactivate orgId keyId, some row⟩ ∈ w.history →
    w.shared.apiKeys.Inactive row.keyHash
  inactive : Cleared keyHash q w.history → w.shared.apiKeys.Inactive keyHash
  empty : Cleared keyHash q w.history → w.shared.redis (apiKeyCacheKey keyHash) = none
  filled : Cleared keyHash q w.history → AllFilled keyHash w.history
  refused : ∀ e h, e :: h <:+ w.history → Cleared keyHash q h →
    ¬FindsActive keyHash e ∧ ¬Hits keyHash e

section Invariant

variable {hashApiKey : String → String} {keyHash : String} {p q : Pid} {c d : KeyConfig}
  {a : Action sig Pid Drift Op} {h : List KeyServiceEvent} {e : KeyServiceEvent} {s : Store}
  {w : KeyWorld}

theorem cleared_cons : Cleared keyHash q (e :: h) ↔
    (e.pid = q ∧ e.cmd = .redisDel (apiKeyCacheKey keyHash)) ∨ Cleared keyHash q h := by
  simp [Cleared]

theorem AllFilled.cons (hf : AllFilled keyHash h) (he : ¬FindsActive keyHash e) :
    AllFilled keyHash (e :: h) := by
  intro x hx hread
  rcases List.mem_cons.mp hx with rfl | hx
  · exact absurd hread he
  · obtain ⟨y, hy, hpid⟩ := hf x hx hread
    exact ⟨y, List.mem_cons_of_mem _ hy, hpid⟩

/-- A step that is no delete by `q`, keeps what is inactive so and lets nobody in. -/
theorem StaysRevoked.command (hi : StaysRevoked keyHash q w)
    (hdel : ¬(e.pid = q ∧ e.cmd = .redisDel (apiKeyCacheKey keyHash)))
    (hnew : ∀ p orgId keyId row, e = ⟨p, .deactivate orgId keyId, some row⟩ →
      s.apiKeys.Inactive row.keyHash)
    (hold : ∀ k, w.shared.apiKeys.Inactive k → s.apiKeys.Inactive k)
    (hempty : Cleared keyHash q w.history → s.redis (apiKeyCacheKey keyHash) = none)
    (hrefused : Cleared keyHash q w.history → ¬FindsActive keyHash e ∧ ¬Hits keyHash e) :
    StaysRevoked keyHash q (w.after e s) := by
  have hcleared : Cleared keyHash q (e :: w.history) → Cleared keyHash q w.history := fun hc =>
    (cleared_cons.mp hc).resolve_left hdel
  refine ⟨fun p orgId keyId row hmem => ?_, fun hc => hold _ (hi.inactive (hcleared hc)),
    fun hc => hempty (hcleared hc),
    fun hc => (hi.filled (hcleared hc)).cons (hrefused (hcleared hc)).1, fun x h hsuf => ?_⟩
  · rcases List.mem_cons.mp hmem with heq | hmem
    · exact hnew p orgId keyId row heq.symm
    · exact hold _ (hi.deactivated p orgId keyId row hmem)
  · rcases List.suffix_cons_iff.mp hsuf with heq | hsuf
    · cases heq
      exact hrefused
    · exact hi.refused x h hsuf

/-- The delete of `q` itself. -/
theorem StaysRevoked.clear {n : ℕ} (hi : StaysRevoked keyHash q w)
    (hrow : ∃ orgId keyId row, ⟨q, .deactivate orgId keyId, some row⟩ ∈ w.history ∧
      row.keyHash = keyHash)
    (hfilled : AllFilled keyHash w.history) (hkeys : s.apiKeys = w.shared.apiKeys)
    (hredis : s.redis (apiKeyCacheKey keyHash) = none) :
    StaysRevoked keyHash q (w.after ⟨q, .redisDel (apiKeyCacheKey keyHash), n⟩ s) := by
  obtain ⟨orgId, keyId, row, hmem, rfl⟩ := hrow
  refine ⟨fun p orgId' keyId' row' hmem' => ?_, fun _ => ?_, fun _ => hredis,
    fun _ => hfilled.cons id, fun x h hsuf => ?_⟩
  · rcases List.mem_cons.mp hmem' with heq | hmem'
    · cases heq
    · rw [World.after_shared, hkeys]
      exact hi.deactivated p orgId' keyId' row' hmem'
  · rw [World.after_shared, hkeys]
    exact hi.deactivated q orgId keyId row hmem
  · rcases List.suffix_cons_iff.mp hsuf with heq | hsuf
    · cases heq
      exact fun _ => ⟨id, id⟩
    · exact hi.refused x h hsuf

/-- Once the cache is cleared nobody is about to fill it. -/
theorem ne_key_of_fill {op : Op} {key : String} {entry : ApiKeyContext} {ttlSeconds : ℕ}
    (hi : StaysRevoked keyHash q w)
    (hrule : Rule hashApiKey p op (transcript p w.history) (.redisSet key entry ttlSeconds))
    (hc : Cleared keyHash q w.history) : apiKeyCacheKey keyHash ≠ key := by
  rintro rfl
  cases op with
  | revokeApiKey => exact hrule
  | resolveApiKey rawKey =>
    obtain ⟨⟨hkey, record, rows, hread, hactive⟩, hnone⟩ := hrule
    obtain rfl := apiKeyCacheKey_injective hkey
    obtain ⟨⟨p', cmd, r⟩, hmem, rfl, hfills⟩ :=
      hi.filled hc _ (mem_transcript.mp hread) ⟨rfl, hactive⟩
    cases cmd with
    | redisSet key' entry' ttl' => exact hnone key' entry' ttl' (mem_transcript.mpr hmem)
    | redisGet | redisDel | lookupApiKeyByHash | deactivate => exact hfills

theorem staysRevoked_step
    (hconf : System.Conforms (Rule hashApiKey) (Finished hashApiKey) c)
    (hi : StaysRevoked keyHash q c.world) (hal : RefillsDone keyHash q c.world a)
    (h : (keyService hashApiKey).Steps c a d) : StaysRevoked keyHash q d.world := by
  cases h with
  | start => exact hi
  | @drift x s hx =>
    cases x with
    | tick n =>
      cases hx
      exact ⟨hi.deactivated, hi.inactive, fun hc => by simp [hi.empty hc], hi.filled, hi.refused⟩
    | createApiKey row =>
      obtain ⟨table, hins, rfl⟩ := Option.map_eq_some_iff.mp hx
      exact ⟨fun p o k row hm => (hi.deactivated p o k row hm).insert hins,
        fun hc => (hi.inactive hc).insert hins, hi.empty, hi.filled, hi.refused⟩
  | @command p i P cmd k r s hp hk hx =>
    have hrule := hconf.allowed hp hk
    cases cmd with
    | redisGet key =>
      cases hx
      refine hi.command (by simp) nofun (fun _ => id) hi.empty fun hc => ⟨id, fun hhit => ?_⟩
      -- a hit would be an entry under the key that has been deleted
      cases hentry : c.world.shared.redis key with
      | none =>
        rw [hentry] at hhit
        exact hhit
      | some entry =>
        rw [hentry] at hhit
        obtain rfl : key = apiKeyCacheKey keyHash := hhit
        rw [hi.empty hc] at hentry
        cases hentry
    | redisSet key entry ttlSeconds =>
      cases hx
      refine hi.command (by simp) nofun (fun _ => id) (fun hc => ?_) fun hc => ⟨id, id⟩
      rw [Store.set_redis_of_ne _ _ (ne_key_of_fill hi hrule hc)]
      exact hi.empty hc
    | redisDel key =>
      cases hx
      by_cases hown : p = q ∧ key = apiKeyCacheKey keyHash
      · -- the delete of the revocation itself
        obtain ⟨rfl, rfl⟩ := hown
        refine hi.clear ?_ (hal rfl rfl) rfl (by simp)
        cases hop : P.op with
        | resolveApiKey rawKey =>
          rw [hop] at hrule
          exact hrule.elim
        | revokeApiKey orgId keyId =>
          rw [hop] at hrule
          obtain ⟨row, hrow, hkey⟩ := hrule
          exact ⟨orgId, keyId, row, mem_transcript.mp hrow, (apiKeyCacheKey_injective hkey).symm⟩
      · refine hi.command (fun he => hown ⟨he.1, Cmd.redisDel.inj he.2⟩) nofun (fun _ => id)
          (fun hc => ?_) fun _ => ⟨id, id⟩
        by_cases hkey : apiKeyCacheKey keyHash = key
        · rw [hkey, Store.set_redis_self]
        · rw [Store.set_redis_of_ne _ _ hkey]
          exact hi.empty hc
    | lookupApiKeyByHash key =>
      cases hx
      refine hi.command (by simp) nofun (fun _ => id) hi.empty fun hc => ⟨fun hread => ?_, id⟩
      -- an active row under the hash would be one that has been deactivated
      cases hrows : c.world.shared.apiKeys.lookupApiKeyByHash key with
      | nil =>
        rw [hrows] at hread
        exact hread
      | cons record rows =>
        rw [hrows] at hread
        obtain ⟨rfl, hactive⟩ := hread
        have hinactive := (hi.inactive hc).isActive_of_mem (hrows ▸ List.mem_cons_self)
        rw [hactive] at hinactive
        cases hinactive
    | deactivate orgId keyId =>
      simp only [keyService, exec] at hx
      split at hx
      · cases hx
        exact hi.command (by simp) nofun (fun _ => id) hi.empty fun _ => ⟨id, id⟩
      · next row table hd =>
        cases hx
        refine hi.command (by simp) (fun p' orgId' keyId' row' heq => ?_)
          (fun _ hk => hk.deactivate hd) hi.empty fun _ => ⟨id, id⟩
        cases heq
        exact KeyTable.inactive_of_deactivate hd

theorem staysRevoked_init : StaysRevoked keyHash q ⟨s, []⟩ :=
  ⟨fun _ _ _ _ hm => absurd hm List.not_mem_nil, fun hc => by simp [Cleared] at hc,
    fun hc => by simp [Cleared] at hc, fun hc => by simp [Cleared] at hc,
    fun _ _ hsuf => absurd (List.suffix_nil.mp hsuf) (by simp)⟩

theorem HasRevoked.cleared (hconf : System.Conforms (Rule hashApiKey) (Finished hashApiKey) c)
    (hq : HasRevoked keyHash c q) : Cleared keyHash q c.world.history := by
  obtain ⟨Q, orgId, keyId, row, hQ, hop, ⟨r, hr⟩, hmem, rfl⟩ := hq
  have hpost := hconf.result hQ hr
  rw [hop] at hpost
  obtain ⟨n, hn⟩ := hpost row (mem_transcript.mpr hmem)
  exact ⟨_, mem_transcript.mp hn, rfl, rfl⟩

/-- What a process reads after the delete lets nobody in. -/
theorem StaysRevoked.refused_of_mem {P : Proc sig Pid Op (Except Thrown Result)}
    (hi : StaysRevoked keyHash q c.world)
    (hconf : System.Conforms (Rule hashApiKey) (Finished hashApiKey) c)
    (hp : c.procs e.pid = some P) (hc : Cleared keyHash q P.since) (he : e ∈ c.world.history) :
    ¬FindsActive keyHash e ∧ ¬Hits keyHash e := by
  obtain ⟨-, h, -, hsuf, -⟩ := hconf.exists_of_mem he
  obtain ⟨x, hx, hcmd⟩ := hc
  exact hi.refused e h hsuf ⟨x, (hconf.since_suffix hp hsuf).subset hx, hcmd⟩

end Invariant

/-- If nobody is between a read of the active row and its fill when the delete of `q` executes,
every resolution of the key that starts after `q` has returned yields nothing. -/
theorem revoked_at_once_of_refillsDone (hashApiKey : String → String) (rawKey : String) (s : Store)
    (pre post : List KeyLabel) (c d : KeyConfig) (q p : Pid)
    (P : Proc sig Pid Op (Except Thrown Result)) (r : Except Thrown Result)
    (hpre : (keyService hashApiKey).run (.init s) pre = some c)
    (hq : HasRevoked (hashApiKey rawKey) c q) (hnot : c.procs p = none)
    (hpost : (keyService hashApiKey).run c post = some d)
    (hp : d.procs p = some P) (hop : P.op = .resolveApiKey rawKey) (hr : P.prog = .done r)
    (hal : (keyService hashApiKey).Along (fun c => RefillsDone (hashApiKey rawKey) q c.world)
      (.init s)
      (pre ++ post)) : r = .ok (.resolved none) := by
  have hrun := System.run_append.mpr ⟨c, hpre, hpost⟩
  have hc := System.conforms_run (obeys hashApiKey) hpre
  have hd := System.conforms_run (obeys hashApiKey) hrun
  have hi : StaysRevoked (hashApiKey rawKey) q d.world :=
    System.invariant_run (obeys hashApiKey)
      (fun _ _ _ hconf hi ha hstep => staysRevoked_step hconf hi ha hstep)
      (System.conforms_init _) staysRevoked_init hrun hal
  have hsince : Cleared (hashApiKey rawKey) q P.since := by
    obtain ⟨e, he, hcmd⟩ := hq.cleared hc
    exact ⟨e, (System.history_suffix_since hpost hnot hp).subset he, hcmd⟩
  have hresult := hd.result hp hr
  rw [hop] at hresult
  obtain ⟨context, rfl, hread⟩ := hresult
  cases context with
  | none => rfl
  | some context =>
    rcases hread rfl with ⟨record, rows, hmem, hactive⟩ | ⟨entry, hmem⟩
    · exact absurd ⟨rfl, hactive⟩ (hi.refused_of_mem hd hp hsince (mem_transcript.mp hmem)).1
    · exact absurd rfl (hi.refused_of_mem hd hp hsince (mem_transcript.mp hmem)).2

def demoOrg : OrgId := ⟨"00000000-0000-4000-8000-000000000001", by decide⟩

/-- An active key whose hash is the key itself. -/
def demoRow : ApiKeyRow where
  id := ⟨"00000000-0000-4000-8000-000000000002", by decide⟩
  orgId := demoOrg
  keyHash := "cm_live_demo"
  keyPrefix := "cm_live_demo"
  scopes := ["chat:write"]
  isActive := true
  rateLimitRpm := 60

def demoStore : Store :=
  ⟨0, fun _ => none, ⟨[demoRow], List.nodup_singleton _, List.nodup_singleton _⟩, []⟩

/-- The labels by which `p` resolves the key up to its read of the row. -/
def lookupLabels (p : Pid) : List KeyLabel :=
  [.start p (.resolveApiKey "cm_live_demo"), .step p (), .step p ()]

/-- The labels by which `p` revokes the key. -/
def revokeLabels (p : Pid) : List KeyLabel :=
  [.start p (.revokeApiKey demoOrg demoRow.id), .step p (), .step p ()]

/-- Process 0 has filled the cache when 1 revokes the key; then 2 resolves it. -/
theorem revoked_at_once_of_refillsDone_filled : ∃ d P,
    (keyService id).run (.init demoStore)
      ((lookupLabels 0 ++ [.step 0 ()] ++ revokeLabels 1) ++ lookupLabels 2) = some d ∧
    d.procs 2 = some P ∧ P.prog = .done (.ok (.resolved none)) := by
  let pre := lookupLabels 0 ++ [.step 0 ()] ++ revokeLabels 1
  have hc : ((keyService id).run (.init demoStore) pre).isSome := by decide
  let c := ((keyService id).run (.init demoStore) pre).get hc
  have hd : ((keyService id).run c (lookupLabels 2)).isSome := rfl
  let d := ((keyService id).run c (lookupLabels 2)).get hd
  have hp : (d.procs 2).isSome := rfl
  have hq : HasRevoked "cm_live_demo" c 1 :=
    ⟨_, demoOrg, demoRow.id, demoRow.deactivated, rfl, rfl, ⟨_, rfl⟩, .tail _ (.head _), rfl⟩
  have hpre : (keyService id).run (.init demoStore) pre = some c := rfl
  have hpost : (keyService id).run c (lookupLabels 2) = some d := rfl
  have hnone := revoked_at_once_of_refillsDone id "cm_live_demo" demoStore pre (lookupLabels 2) c d
    1 2 ((d.procs 2).get hp) _ hpre hq rfl hpost rfl rfl rfl (by decide)
  exact ⟨d, (d.procs 2).get hp, System.run_append.mpr ⟨c, hpre, hpost⟩, rfl,
    congrArg Program.done hnone⟩

/-- Process 0 reads the active row, 1 revokes the key, 0 fills the cache, and 2 is let in. -/
theorem revoked_at_once_fails : ¬∀ hashApiKey rawKey s pre post c d q p P r,
    (keyService hashApiKey).run (.init s) pre = some c → HasRevoked (hashApiKey rawKey) c q →
    c.procs p = none → (keyService hashApiKey).run c post = some d → d.procs p = some P →
    P.op = .resolveApiKey rawKey → P.prog = .done r → r = .ok (.resolved none) := by
  intro h
  let pre := lookupLabels 0 ++ revokeLabels 1
  let post : List KeyLabel := [.step 0 (), .start 2 (.resolveApiKey "cm_live_demo"), .step 2 ()]
  have hc : ((keyService id).run (.init demoStore) pre).isSome := by decide
  let c := ((keyService id).run (.init demoStore) pre).get hc
  have hd : ((keyService id).run c post).isSome := rfl
  let d := ((keyService id).run c post).get hd
  have hp : (d.procs 2).isSome := rfl
  have hq : HasRevoked "cm_live_demo" c 1 :=
    ⟨_, demoOrg, demoRow.id, demoRow.deactivated, rfl, rfl, ⟨_, rfl⟩, .tail _ (.head _), rfl⟩
  have hnone := h id "cm_live_demo" demoStore pre post c d 1 2 ((d.procs 2).get hp)
    (.ok (.resolved (some ⟨demoRow.id, demoOrg, ["chat:write"], 60⟩))) rfl hq rfl rfl rfl rfl rfl
  cases hnone

end CloudMesh.Auth.ApiKeys
