import CloudMesh.Gateway.Requests

/-!
# Requests with one idempotency key

A request checks for a stored record first and stores its own one last, and nothing holds the key in
between: requests that check before the first record is stored all go on to the provider. They are
one request as long as a check that finds no record comes only after every earlier request of the
key that has found none has been answered and has left nothing behind.

## Main definitions

- `IdempotencySafe` — the requests of one key are one execution
- `Spent` — a request has been answered and has left nothing behind
- `ChecksWait` — the condition on the steps of a run
- `RecordsLast`, `ChecksFollow` — when no record is lost, and a check comes after the answers
- `checksWait_of_checksFollow` — then the condition is met
-/

namespace CloudMesh.Gateway

open Concurrent

/-! ## One execution -/

section Safe

variable (orgId : OrgId) (key : String) (c : GatewayConfig)

/-- The idempotency key of a process, if it is a request that has one. -/
def Op.idempotencyKey : Op → Option String
  | .chat input => input.idempotencyKey
  | _ => none

/-- A request of the org with the key. -/
def Carries (p : Pid) : Prop :=
  p.orgId = orgId ∧ ((c.procs p).bind fun P => P.op.idempotencyKey) = some key

/-- The provider has answered, or usage has been recorded; an insert that fails may have been
executed. -/
def executes : Exchange sig → Bool
  | ⟨.insertUsage _ (some _), .ok recorded⟩ => recorded
  | ⟨.insertUsage _ (some _), .error _⟩ => true
  | e => (answerOf e).isSome

def Executed (p : Pid) : Prop := ∃ e ∈ transcript p c.world.history, executes e = true

instance (p : Pid) : Decidable (Executed c p) :=
  inferInstanceAs (Decidable (∃ e ∈ transcript p c.world.history, _))

instance (p : Pid) : Decidable (Carries orgId key c p) := inferInstanceAs (Decidable (_ ∧ _))

/-- The result that a request has been answered with. -/
def resultOf (p : Pid) : Option ChatResponse :=
  match outcomeOf c p with
  | some (.ok (some reply)) => reply.result
  | _ => none

/-- At most one of the requests is answered by the provider or billed, and every result is its
result. -/
structure IdempotencySafe : Prop where
  once : ∀ p q, Carries orgId key c p → Carries orgId key c q → Executed c p → Executed c q → p = q
  same : ∀ p q response response', Carries orgId key c p → Carries orgId key c q →
    resultOf c p = some response → resultOf c q = some response' → response = response'
  executed : ∀ p q response, Carries orgId key c p → Carries orgId key c q →
    resultOf c p = some response → answers (transcript q c.world.history) ≠ [] →
      ∃ req, (req, response) ∈ answers (transcript q c.world.history)

end Safe

/-! ## When a check may find nothing -/

/-- The check of the key finds no record. -/
def misses (key : String) : GatewayEvent → Bool
  | ⟨_, .redisGet k, .ok none⟩ => k = key
  | _ => false

/-- Something stays that a repetition of the request would repeat or meet. -/
def leaves (e : Exchange sig) : Bool := executes e || e.1.storesRecord

/-- The process has ended and has left nothing behind. -/
def Spent (c : GatewayConfig) (p : Pid) : Prop :=
  (outcomeOf c p).isSome = true ∧ ∀ e ∈ transcript p c.world.history, leaves e = false

/-- A check finds no record only if every request whose check has found none before is spent. -/
def ChecksWait (orgId : OrgId) (key : String) (c : GatewayConfig) :
    Action sig Pid Drift Op → Prop
  | .command e => misses (idempotencyKey orgId key) e = true →
      ∀ e' ∈ c.world.history, misses (idempotencyKey orgId key) e' = true → Spent c e'.pid
  | .start .. | .drift _ => True

instance (c : GatewayConfig) (p : Pid) : Decidable (Spent c p) :=
  inferInstanceAs (Decidable (_ ∧ ∀ e ∈ transcript p c.world.history, leaves e = false))

instance (orgId : OrgId) (key : String) (c : GatewayConfig) (a : Action sig Pid Drift Op) :
    Decidable (ChecksWait orgId key c a) :=
  match a with
  | .command _ => inferInstanceAs (Decidable (_ → ∀ e' ∈ c.world.history, _))
  | .start .. => isTrue trivial
  | .drift _ => isTrue trivial

section Invariant

variable {deps : Deps} {orgId : OrgId} {key : String} {c d : GatewayConfig}
  {a : Action sig Pid Drift Op}

theorem idempotencyKey_inj {A B : OrgId} {x y : String}
    (h : idempotencyKey A x = idempotencyKey B y) : A = B ∧ x = y := by
  simp only [idempotencyKey, String.append_assoc] at h
  have hlist := congrArg String.toList h
  simp only [String.toList_append, List.append_cancel_left_eq] at hlist
  simp only [← String.toList_append] at hlist
  obtain ⟨rfl, hrest⟩ := Uuid.text_append_inj (String.toList_inj.mp hlist)
  have hkey := congrArg String.toList hrest
  simp only [String.toList_append, List.append_cancel_left_eq] at hkey
  exact ⟨rfl, String.toList_inj.mp hkey⟩

theorem Carries.request {p : Pid} (h : Carries orgId key c p) : p.orgId = orgId ∧
    ∃ P input, c.procs p = some P ∧ P.op = .chat input ∧ input.idempotencyKey = some key := by
  obtain ⟨P, hP, hkey⟩ := Option.bind_eq_some_iff.mp h.2
  refine ⟨h.1, P, ?_⟩
  cases hop : P.op with
  | chat input =>
    rw [hop] at hkey
    exact ⟨input, hP, rfl, hkey⟩
  | cacheStats | deleteCache | abStats | createJob | listJobs | getJob | replayJob | processJob =>
    rw [hop] at hkey
    cases hkey

/-- Someone has stored the record under the key. -/
def StoredBy (key : String) (record : IdempotentRecord) (q : Pid) (h : List GatewayEvent) : Prop :=
  ∃ ttlMs answer, ⟨q, .redisSet key (.record record) ttlMs, answer⟩ ∈ h

theorem StoredBy.cons {record : IdempotentRecord} {q : Pid} {h : List GatewayEvent}
    (hs : StoredBy key record q h) (e : GatewayEvent) : StoredBy key record q (e :: h) := by
  obtain ⟨ttlMs, answer, hmem⟩ := hs
  exact ⟨ttlMs, answer, List.mem_cons_of_mem _ hmem⟩

/-- Records are stored and read as they are. -/
structure Genuine (c : GatewayConfig) : Prop where
  stored : ∀ k record, c.world.shared.value k = some (.record record) →
    ∃ q, StoredBy k record q c.world.history
  replayed : ∀ p k record, ⟨p, .redisGet k, .ok (some (.record record))⟩ ∈ c.world.history →
    ∃ q, StoredBy k record q c.world.history

/-- Records are genuine, and of two requests that have found none one is spent. -/
structure Kept (orgId : OrgId) (key : String) (c : GatewayConfig) : Prop extends Genuine c where
  alone : ∀ e ∈ c.world.history, ∀ e' ∈ c.world.history,
    misses (idempotencyKey orgId key) e = true → misses (idempotencyKey orgId key) e' = true →
      e.pid ≠ e'.pid → Spent c e.pid ∨ Spent c e'.pid

/-- A process that has ended does nothing more. -/
theorem unchanged_of_ended {p : Pid} (h : (outcomeOf c p).isSome = true)
    (hstep : (gateway deps).Steps c a d) : d.procs p = c.procs p ∧
      transcript p d.world.history = transcript p c.world.history := by
  cases hstep with
  | @start q op hq =>
    have hpq : p ≠ q := by
      rintro rfl
      simp [outcomeOf, hq] at h
    exact ⟨Function.update_of_ne hpq _ _, rfl⟩
  | @command q i P cmd k r s hq hk hx =>
    have hpq : p ≠ q := by
      rintro rfl
      simp [outcomeOf, hq, hk, Program.returned] at h
    exact ⟨Function.update_of_ne hpq _ _, transcript_cons_of_ne (Ne.symm hpq)⟩
  | drift => exact ⟨rfl, rfl⟩

theorem Spent.step {p : Pid} (h : Spent c p) (hstep : (gateway deps).Steps c a d) : Spent d p := by
  obtain ⟨hprocs, htr⟩ := unchanged_of_ended h.1 hstep
  refine ⟨?_, htr ▸ h.2⟩
  rw [outcomeOf, hprocs]
  exact h.1

theorem genuine_init (s : Store) (hs : ∀ k record, s.value k ≠ some (.record record)) :
    Genuine (.init s) :=
  ⟨fun k record h => absurd h (hs k record), fun _ _ _ h => absurd h List.not_mem_nil⟩

/-- Only the `SET` of a record makes a record. -/
theorem record_of_effect {s s' : Store} {cmd : Cmd} {k : String} {record : IdempotentRecord}
    (h : s.Effect cmd s')
    (hnx : ∀ k v ttlMs, cmd = .redisSetNx k v ttlMs → cmd.storesRecord = false)
    (hv : s'.value k = some (.record record)) :
    s.value k = some (.record record) ∨ ∃ ttlMs, cmd = .redisSet k (.record record) ttlMs := by
  rcases value_of_effect h hv with hold | hset | ⟨ttlMs, rfl⟩ | ⟨n, hn⟩
  · exact .inl hold
  · exact .inr hset
  · exact nomatch hnx _ _ _ rfl
  · cases hn

theorem storesRecord_of_setNx {p : Pid} {op : Op} {t : Transcript sig} {k : String}
    {v : RedisValue} {ttlMs : ℕ} (h : Rule deps p op t (.redisSetNx k v ttlMs)) :
    Cmd.storesRecord (.redisSetNx k v ttlMs) = false := by
  cases op with
  | chat input =>
    cases v with
    | record record => exact h.1.elim
    | text | count | flags | processing | response => rfl
  | cacheStats | deleteCache | abStats | createJob | listJobs | getJob | replayJob | processJob =>
    exact h

theorem genuine_step (hconf : System.Conforms (Rule deps) Ended c) (hi : Genuine c)
    (hstep : (gateway deps).Steps c a d) : Genuine d := by
  cases hstep with
  | start => exact ⟨hi.stored, hi.replayed⟩
  | drift hx => exact ⟨fun k record hv => hi.stored k record (value_of_drift hx hv), hi.replayed⟩
  | @command p i P cmd k r s hp hk hx =>
    have hrule := hconf.allowed hp hk
    refine ⟨fun k' record hv => ?_, fun q k' record hmem => ?_⟩
    · have hnx : ∀ k v ttlMs, cmd = .redisSetNx k v ttlMs → cmd.storesRecord = false := by
        rintro k v ttlMs rfl
        exact storesRecord_of_setNx hrule
      rcases record_of_effect (effect_of_exec (p := p) hx) hnx hv with hold | ⟨ttlMs, rfl⟩
      · obtain ⟨q, hq⟩ := hi.stored k' record hold
        exact ⟨q, hq.cons _⟩
      · exact ⟨p, ttlMs, r, List.mem_cons_self⟩
    · rcases List.mem_cons.mp hmem with heq | hold
      · cases heq
        obtain ⟨q', hq'⟩ := hi.stored k' record (value_of_redisGet (p := p) hx)
        exact ⟨q', hq'.cons _⟩
      · obtain ⟨q', hq'⟩ := hi.replayed q k' record hold
        exact ⟨q', hq'.cons _⟩

theorem kept_step (hconf : System.Conforms (Rule deps) Ended c) (hi : Kept orgId key c)
    (hal : ChecksWait orgId key c a) (hstep : (gateway deps).Steps c a d) : Kept orgId key d := by
  have hspent : ∀ p, Spent c p → Spent d p := fun p h => h.step hstep
  refine ⟨genuine_step hconf hi.toGenuine hstep, ?_⟩
  cases hstep with
  | start | drift =>
    exact fun e he e' he' hm hm' hne =>
      (hi.alone e he e' he' hm hm' hne).imp (hspent _) (hspent _)
  | @command p i P cmd k r s hp hk hx =>
    intro e he e' he' hm hm' hne
    -- a check that finds nothing now comes after the other request is spent
    rcases List.mem_cons.mp he with rfl | he
    · rcases List.mem_cons.mp he' with rfl | he'
      · exact absurd rfl hne
      · exact .inr (hspent _ (hal hm e' he' hm'))
    · rcases List.mem_cons.mp he' with rfl | he'
      · exact .inl (hspent _ (hal hm' e he hm))
      · exact (hi.alone e he e' he' hm hm' hne).imp (hspent _) (hspent _)

/-! ## Runs -/

section Run

variable (hconf : System.Conforms (Rule deps) Ended c)

include hconf

/-- Whoever has done anything but the check has checked first. -/
theorem misses_of_mem {p : Pid} {cmd : Cmd} {r : sig.Ans cmd} (hp : Carries orgId key c p)
    (hmem : ⟨p, cmd, r⟩ ∈ c.world.history) (hcmd : ∀ k, cmd ≠ .redisGet k) :
    ∃ e ∈ c.world.history, e.pid = p ∧ misses (idempotencyKey orgId key) e = true := by
  obtain ⟨rfl, P, input, hP, hop, hkey⟩ := hp.request
  obtain ⟨Q, hist, hQ, hsuf, hrule⟩ := hconf.exists_of_mem hmem
  obtain rfl := Option.some.inj (hP.symm.trans hQ)
  rw [hop] at hrule
  rcases hrule.2 with hchecked | ⟨-, k, -, heq⟩
  · have hget := mem_transcript.mp (hchecked key hkey)
    exact ⟨_, hsuf.subset (List.mem_cons_of_mem _ hget), rfl, by simp [misses]⟩
  · exact absurd heq (hcmd _)

omit hconf in
theorem not_spent {p : Pid} {e : Exchange sig} (hmem : e ∈ transcript p c.world.history)
    (hleaves : leaves e = true) : ¬Spent c p :=
  fun h => by simp [h.2 e hmem] at hleaves

/-- Of the requests that have checked in vain, one at most leaves anything. -/
theorem eq_of_leaves {p q : Pid} {e e' : Exchange sig} (hi : Kept orgId key c)
    (hp : Carries orgId key c p) (hq : Carries orgId key c q)
    (hmem : e ∈ transcript p c.world.history) (hmem' : e' ∈ transcript q c.world.history)
    (hcmd : ∀ k, e.1 ≠ .redisGet k) (hcmd' : ∀ k, e'.1 ≠ .redisGet k)
    (hleaves : leaves e = true) (hleaves' : leaves e' = true) : p = q := by
  obtain ⟨m, hm, rfl, hmiss⟩ := misses_of_mem hconf hp (mem_transcript.mp hmem) hcmd
  obtain ⟨m', hm', rfl, hmiss'⟩ := misses_of_mem hconf hq (mem_transcript.mp hmem') hcmd'
  by_contra hne
  rcases hi.alone m hm m' hm' hmiss hmiss' hne with hs | hs
  · exact not_spent hmem hleaves hs
  · exact not_spent hmem' hleaves' hs

/-- What a record's `SET` says of the request that issues it. -/
theorem carries_of_storedBy {q : Pid} {record : IdempotentRecord}
    (h : StoredBy (idempotencyKey orgId key) record q c.world.history) :
    Carries orgId key c q ∧ ∃ hist ttlMs answer,
      ⟨q, .redisSet (idempotencyKey orgId key) (.record record) ttlMs, answer⟩ :: hist <:+
        c.world.history ∧ Unrecorded (transcript q hist) ∧
      (answers (transcript q hist) = [] ∨
        ∃ req, (req, record.body) ∈ answers (transcript q hist)) := by
  obtain ⟨ttlMs, answer, hmem⟩ := h
  obtain ⟨Q, hist, hQ, hsuf, hrule⟩ := hconf.exists_of_mem hmem
  cases hop : Q.op with
  | chat input =>
    rw [hop] at hrule
    obtain ⟨⟨⟨k, hk, hkey⟩, hun, hans⟩, -⟩ := hrule
    obtain ⟨horg, rfl⟩ := idempotencyKey_inj hkey
    have hcarries : Carries orgId key c q := by
      refine ⟨horg.symm, ?_⟩
      rw [hQ, Option.bind_some, hop]
      exact hk
    exact ⟨hcarries, hist, ttlMs, answer, hsuf, hun, hans⟩
  | cacheStats | deleteCache | abStats | createJob | listJobs | getJob | replayJob | processJob =>
    rw [hop] at hrule
    exact nomatch hrule

theorem storedBy_of_result {p : Pid} {response : ChatResponse} (hi : Genuine c)
    (hp : Carries orgId key c p) (hr : resultOf c p = some response) :
    ∃ q record, StoredBy (idempotencyKey orgId key) record q c.world.history ∧
      record.body = response := by
  obtain ⟨rfl, P, input, hP, hop, hkey⟩ := hp.request
  cases hout : outcomeOf c p with
  | none => simp [resultOf, hout] at hr
  | some outcome =>
    have hdone : P.prog = .done outcome := by
      simp only [outcomeOf, hP, Option.bind_some] at hout
      cases hprog : P.prog with
      | done a => simpa [hprog, Program.returned] using hout
      | issue cmd k => simp [hprog, Program.returned] at hout
    have hend := hconf.result hP hdone
    rw [hop] at hend
    rcases outcome with err | _ | reply
    · simp [resultOf, hout] at hr
    · simp [resultOf, hout] at hr
    · cases hend.2 reply response rfl (by simpa [resultOf, hout] using hr) with
      | replayed k statusCode hk hget =>
        cases hkey.symm.trans hk
        obtain ⟨q, hq⟩ := hi.replayed p _ _ (mem_transcript.mp hget)
        exact ⟨q, _, hq, rfl⟩
      | executed hstored =>
        obtain ⟨record, ttlMs, answer, hset, hbody⟩ := hstored key hkey
        exact ⟨p, record, ⟨ttlMs, answer, mem_transcript.mp hset⟩, hbody⟩

omit hconf in
theorem StoredBy.leaves {q : Pid} {record : IdempotentRecord} {k : String}
    (h : StoredBy k record q c.world.history) : ∃ e ∈ transcript q c.world.history,
      (∀ k, e.1 ≠ .redisGet k) ∧ leaves e = true := by
  obtain ⟨ttlMs, answer, hmem⟩ := h
  exact ⟨_, mem_transcript.mpr hmem, fun _ heq => (nomatch heq),
    by simp [Gateway.leaves, Cmd.storesRecord]⟩

/-- A process stores one record. -/
theorem StoredBy.unique {q : Pid} {record record' : IdempotentRecord}
    (h : StoredBy (idempotencyKey orgId key) record q c.world.history)
    (h' : StoredBy (idempotencyKey orgId key) record' q c.world.history) : record = record' := by
  obtain ⟨-, hist, ttlMs, answer, hsuf, hun, -⟩ := carries_of_storedBy hconf h
  obtain ⟨-, hist', ttlMs', answer', hsuf', hun', -⟩ := carries_of_storedBy hconf h'
  rcases System.cases_of_suffix hsuf hsuf' with hmem | heq | hmem
  · exact nomatch hun _ (mem_transcript.mpr hmem)
  · cases heq
    rfl
  · exact nomatch hun' _ (mem_transcript.mpr hmem)

/-- A request calls the provider before it stores its record. -/
theorem unrecorded_of_answer {q : Pid} {cmd : Cmd} {r : sig.Ans cmd}
    {x : ChatRequest × ChatResponse} (hq : Carries orgId key c q)
    (hmem : ⟨q, cmd, r⟩ ∈ c.world.history) (hx : answerOf ⟨cmd, r⟩ = some x) :
    ∃ hist, ⟨q, cmd, r⟩ :: hist <:+ c.world.history ∧ Unrecorded (transcript q hist) := by
  obtain ⟨-, P, input, hP, hop, -⟩ := hq.request
  obtain ⟨Q, hist, hQ, hsuf, hrule⟩ := hconf.exists_of_mem hmem
  obtain rfl := Option.some.inj (hP.symm.trans hQ)
  rw [hop] at hrule
  refine ⟨hist, hsuf, ?_⟩
  cases cmd with
  | chat provider req => exact hrule.1.2
  | streamRest provider req first => exact hrule.1.2
  | _ => exact nomatch hx

/-- A request that a provider has answered stores that answer. -/
theorem StoredBy.answered {q : Pid} {record : IdempotentRecord}
    (h : StoredBy (idempotencyKey orgId key) record q c.world.history)
    (hq : Carries orgId key c q) (hans : answers (transcript q c.world.history) ≠ []) :
    ∃ req, (req, record.body) ∈ answers (transcript q c.world.history) := by
  obtain ⟨-, hist, ttlMs, answer, hsuf, -, hbody⟩ := carries_of_storedBy hconf h
  have hle : transcript q hist <:+ transcript q c.world.history :=
    transcript_suffix ((List.suffix_cons _ _).trans hsuf)
  rcases hbody with hnil | ⟨req, hreq⟩
  · obtain ⟨x, hx⟩ := List.exists_mem_of_ne_nil _ hans
    obtain ⟨⟨cmd, r⟩, he, hanswer⟩ := List.mem_filterMap.mp hx
    obtain ⟨hist', hsuf', hun⟩ := unrecorded_of_answer hconf hq (mem_transcript.mp he) hanswer
    rcases System.cases_of_suffix hsuf hsuf' with hmem | heq | hmem
    · have hmem' : x ∈ answers (transcript q hist) :=
        List.mem_filterMap.mpr ⟨_, mem_transcript.mpr hmem, hanswer⟩
      rw [hnil] at hmem'
      exact absurd hmem' List.not_mem_nil
    · cases heq
      exact nomatch hanswer
    · exact nomatch hun _ (mem_transcript.mpr hmem)
  · exact ⟨req, (hle.filterMap answerOf).subset hreq⟩

omit hconf in
theorem leaves_of_executes {e : Exchange sig} (h : executes e = true) : leaves e = true := by
  rw [leaves, h, Bool.true_or]

omit hconf in
theorem ne_redisGet_of_executes {e : Exchange sig} (h : executes e = true) (k : String) :
    e.1 ≠ .redisGet k := by
  obtain ⟨cmd, r⟩ := e
  rintro rfl
  exact nomatch h

omit hconf in
theorem executes_of_answer {e : Exchange sig} {x : ChatRequest × ChatResponse}
    (h : answerOf e = some x) : executes e = true := by
  unfold executes
  split
  · cases h
  · rfl
  · rw [h, Option.isSome_some]

theorem idempotencySafe_of_kept (hi : Kept orgId key c) : IdempotencySafe orgId key c := by
  refine ⟨fun p q hp hq hep heq => ?_, fun p q response response' hp hq hr hr' => ?_,
    fun p q response hp hq hr hans => ?_⟩
  · obtain ⟨e, he, hexec⟩ := hep
    obtain ⟨e', he', hexec'⟩ := heq
    exact eq_of_leaves hconf hi hp hq he he' (ne_redisGet_of_executes hexec)
      (ne_redisGet_of_executes hexec') (leaves_of_executes hexec) (leaves_of_executes hexec')
  · obtain ⟨x, record, hx, rfl⟩ := storedBy_of_result hconf hi.toGenuine hp hr
    obtain ⟨y, record', hy, rfl⟩ := storedBy_of_result hconf hi.toGenuine hq hr'
    obtain ⟨e, he, hcmd, hleaves⟩ := hx.leaves
    obtain ⟨e', he', hcmd', hleaves'⟩ := hy.leaves
    obtain rfl := eq_of_leaves hconf hi (carries_of_storedBy hconf hx).1
      (carries_of_storedBy hconf hy).1 he he' hcmd hcmd' hleaves hleaves'
    rw [hx.unique hconf hy]
  · obtain ⟨x, record, hx, rfl⟩ := storedBy_of_result hconf hi.toGenuine hp hr
    obtain ⟨e, he, hcmd, hleaves⟩ := hx.leaves
    obtain ⟨y, hy⟩ := List.exists_mem_of_ne_nil _ hans
    obtain ⟨e', he', hanswer⟩ := List.mem_filterMap.mp hy
    have hexec := executes_of_answer hanswer
    obtain rfl := eq_of_leaves hconf hi (carries_of_storedBy hconf hx).1 hq he he' hcmd
      (ne_redisGet_of_executes hexec) hleaves (leaves_of_executes hexec)
    exact hx.answered hconf hq hans

end Run

end Invariant

/-- In a run in which every check of a key that finds no record waits for the requests that have
found none before, the requests with the key are one execution. -/
theorem idempotencySafe_of_checksWait (deps : Deps) (orgId : OrgId) (key : String)
    (organizations : OrgId → Option OrgRow) (billingPlans : String → Option ℚ)
    (ls : List GatewayLabel) (c : GatewayConfig)
    (hrun : (gateway deps).run (.init (.fresh organizations billingPlans)) ls = some c)
    (hal : (gateway deps).Along (ChecksWait orgId key) (.init (.fresh organizations billingPlans))
      ls) : IdempotencySafe orgId key c := by
  have hi : Kept orgId key c :=
    System.invariant_run (obeys deps)
      (fun _ _ _ hconf hi ha hstep => kept_step hconf hi ha hstep) (System.conforms_init _)
      ⟨genuine_init _ fun k record h => (by cases h), fun _ h => absurd h List.not_mem_nil⟩ hrun hal
  exact idempotencySafe_of_kept (System.conforms_run (obeys deps) hrun) hi

/-! ### A retry -/

/-- A request with a key from its check to its record, after the flags have been read or not. -/
def keyed (flags : List Choice) (id : String) : List Choice :=
  flags ++ calling (.ok (greeted id)) ++ [.nothing, .nothing]

/-- The request is repeated after its reply. -/
def retriedLate : List GatewayLabel :=
  .start ⟨tenantA, 0⟩ (.chat (greeting "gpt-4o-mini" (some "order-1"))) ::
    steps ⟨tenantA, 0⟩ (.nothing :: keyed [.nothing, .nothing, .nothing] "chatcmpl-1") ++
  .start ⟨tenantA, 1⟩ (.chat (greeting "gpt-4o-mini" (some "order-1"))) ::
    steps ⟨tenantA, 1⟩ [.nothing]

theorem idempotencySafe_of_checksWait_retriedLate :
    ∃ c, (gateway plainDeps).run (.init (.fresh (fun _ => none) (fun _ => none))) retriedLate =
        some c ∧ resultOf c ⟨tenantA, 1⟩ = some (greeted "chatcmpl-1") ∧
      IdempotencySafe tenantA "order-1" c := by
  have hres : ((gateway plainDeps).run (.init (.fresh (fun _ => none) (fun _ => none)))
      retriedLate).map (fun c => resultOf c ⟨tenantA, 1⟩) = some (some (greeted "chatcmpl-1")) := by
    decide +kernel
  obtain ⟨c, hrun, hc⟩ := Option.map_eq_some_iff.mp hres
  exact ⟨c, hrun, hc, idempotencySafe_of_checksWait plainDeps tenantA "order-1" _ _ _ c hrun
    (by decide +kernel)⟩

/-- The request is repeated while it is still running. -/
def retriedEarly : List GatewayLabel :=
  [.start ⟨tenantA, 0⟩ (.chat (greeting "gpt-4o-mini" (some "order-1"))),
    .step ⟨tenantA, 0⟩ ⟨.nothing, none⟩,
    .start ⟨tenantA, 1⟩ (.chat (greeting "gpt-4o-mini" (some "order-1"))),
    .step ⟨tenantA, 1⟩ ⟨.nothing, none⟩] ++
  steps ⟨tenantA, 0⟩ (keyed [.nothing, .nothing, .nothing] "chatcmpl-1") ++
  steps ⟨tenantA, 1⟩ (keyed [.nothing] "chatcmpl-2")

/-- Both requests are executed and billed. -/
theorem idempotencySafe_fails :
    ∃ c, (gateway plainDeps).run (.init (.fresh (fun _ => none) (fun _ => none))) retriedEarly =
        some c ∧ ¬IdempotencySafe tenantA "order-1" c := by
  have hres : ((gateway plainDeps).run (.init (.fresh (fun _ => none) (fun _ => none)))
      retriedEarly).map (fun c => decide (
        (Carries tenantA "order-1" c ⟨tenantA, 0⟩ ∧ Carries tenantA "order-1" c ⟨tenantA, 1⟩) ∧
          Executed c ⟨tenantA, 0⟩ ∧ Executed c ⟨tenantA, 1⟩)) = some true := by
    decide +kernel
  obtain ⟨c, hrun, hc⟩ := Option.map_eq_some_iff.mp hres
  obtain ⟨⟨hcarries, hcarries'⟩, hexec, hexec'⟩ := of_decide_eq_true hc
  exact ⟨c, hrun, fun h => absurd (h.once _ _ hcarries hcarries' hexec hexec') (by decide)⟩

/-! ## Records that last -/

section Records

variable {deps : Deps} {orgId : OrgId} {key : String} {c d : GatewayConfig}
  {a : Action sig Pid Drift Op}

/-- No `SET` of a record fails, and what is under the key does not expire. -/
def RecordsLast (orgId : OrgId) (key : String) (c : GatewayConfig) :
    Action sig Pid Drift Op → Prop
  | .command e => e.cmd.storesRecord = true → e.ans.isOk = true
  | .drift e => (c.world.shared.value (idempotencyKey orgId key)).isSome = true →
      ∀ s ∈ drift e c.world.shared, (s.value (idempotencyKey orgId key)).isSome = true
  | .start .. => True

/-- A check comes after every request that has found no record has been answered with a result, or
is spent. -/
def ChecksFollow (orgId : OrgId) (key : String) (c : GatewayConfig) :
    Action sig Pid Drift Op → Prop
  | .command e => e.cmd = .redisGet (idempotencyKey orgId key) →
      ∀ e' ∈ c.world.history, misses (idempotencyKey orgId key) e' = true →
        Spent c e'.pid ∨
          Carries orgId key c e'.pid ∧ (resultOf c e'.pid).isSome = true
  | .start .. | .drift _ => True

/-- Once a record has been stored under the key, one is there. -/
def RecordKept (orgId : OrgId) (key : String) (c : GatewayConfig) : Prop :=
  ∀ q record, StoredBy (idempotencyKey orgId key) record q c.world.history →
    ∃ record', c.world.shared.value (idempotencyKey orgId key) = some (.record record')

theorem eq_of_misses {k : String} {e : GatewayEvent} (h : misses k e = true) :
    e = ⟨e.pid, .redisGet k, .ok none⟩ := by
  unfold misses at h
  split at h
  · cases of_decide_eq_true h
    rfl
  · cases h

theorem value_setKey_of_ne {s : Store} {k k' : String} {entry : Option Entry} (h : k ≠ k') :
    (s.setKey k' entry).value k = s.value k :=
  congrArg (Option.map Entry.value) (Function.update_of_ne h ..)

/-- No command of any org removes a record: it is left or replaced by another one. -/
theorem record_of_ownedBy {s s' : Store} {cmd : Cmd} {B : OrgId} {record : IdempotentRecord}
    (h : s.Effect cmd s') (hc : cmd.OwnedBy B)
    (hv : s.value (idempotencyKey orgId key) = some (.record record)) :
    ∃ record', s'.value (idempotencyKey orgId key) = some (.record record') := by
  cases h with
  | set k value ttlMs =>
    by_cases hk : idempotencyKey orgId key = k
    · cases value with
      | record record' => exact ⟨record', by simp [hk, Store.value, Store.setKey]⟩
      | flags => exact absurd (hk.trans hc).symm (idempotencyKey_ne_flagsKey orgId B key)
      | response =>
        obtain ⟨promptHash, hdedup⟩ := hc
        exact absurd (hk.trans hdedup) (dedupKey_ne_idempotencyKey _ _)
      | text | count | processing => exact hc.elim
    · exact ⟨record, (value_setKey_of_ne hk).trans hv⟩
  | setNx k value ttlMs hnone =>
    have hk : idempotencyKey orgId key ≠ k := by
      rintro rfl
      simp [Store.value, hnone] at hv
    exact ⟨record, (value_setKey_of_ne hk).trans hv⟩
  | del k =>
    obtain ⟨promptHash, rfl⟩ := hc
    exact ⟨record, (value_setKey_of_ne (dedupKey_ne_idempotencyKey _ _)).trans hv⟩
  | release k token htext =>
    have hk : idempotencyKey orgId key ≠ k := by
      rintro rfl
      cases hv.symm.trans htext
    exact ⟨record, (value_setKey_of_ne hk).trans hv⟩
  | incr k n expireAt hcount =>
    have hk : idempotencyKey orgId key ≠ k := by
      rintro rfl
      obtain ⟨m, hm⟩ := hcount _ hv
      cases hm
    exact ⟨record, (value_setKey_of_ne hk).trans hv⟩
  | updateJob id jobId update =>
    refine ⟨record, ?_⟩
    unfold Store.updateJob
    split <;> exact hv
  | _ => exact ⟨record, hv⟩

/-- Every process stays within its org. -/
theorem obeys_ownedBy (deps : Deps) :
    (gateway deps).Obeys (fun p _ _ (c : Cmd) => c.OwnedBy p.orgId) fun _ _ _ _ => True :=
  fun p op => (Program.Triple.of_every (P := fun _ => True) (handler_confined p.orgId deps op)
    (fun _ _ _ hc => hc) fun _ _ _ _ _ => trivial) [] trivial

theorem recordKept_step
    (hconf : System.Conforms (fun p _ _ (c : Cmd) => c.OwnedBy p.orgId) (fun _ _ _ _ => True) c)
    (hi : RecordKept orgId key c) (hal : RecordsLast orgId key c a)
    (hstep : (gateway deps).Steps c a d) : RecordKept orgId key d := by
  cases hstep with
  | start => exact hi
  | drift hx =>
    intro q record hs
    obtain ⟨record', hv⟩ := hi q record hs
    obtain ⟨value, hvalue⟩ := Option.isSome_iff_exists.mp (hal (by rw [hv]; rfl) _ hx)
    cases hv.symm.trans (value_of_drift hx hvalue)
    exact ⟨record', hvalue⟩
  | @command p i P cmd k r s hp hk hx =>
    rintro q record ⟨ttlMs, answer, hmem⟩
    rcases List.mem_cons.mp hmem with heq | hold
    · -- the `SET` itself, which is answered
      cases heq
      cases answer with
      | error err => exact absurd (hal rfl) Bool.false_ne_true
      | ok r =>
        cases perform_of_exec (p := p) hx
        exact ⟨record, by simp [Store.value, Store.setKey]⟩
    · obtain ⟨record', hv⟩ := hi q record ⟨ttlMs, answer, hold⟩
      exact record_of_ownedBy (effect_of_exec (p := p) hx) (hconf.allowed hp hk) hv

/-- A request that has been answered with a result leaves its record behind. -/
theorem record_of_result (hconf : System.Conforms (Rule deps) Ended c) (hgenuine : Genuine c)
    (hi : RecordKept orgId key c) {p : Pid} {response : ChatResponse}
    (hp : Carries orgId key c p) (hr : resultOf c p = some response) :
    ∃ record, c.world.shared.value (idempotencyKey orgId key) = some (.record record) := by
  obtain ⟨q, record, hs, -⟩ := storedBy_of_result hconf hgenuine hp hr
  exact hi q record hs

end Records

/-- **Where records last, it is enough that checks come late**: a check that follows the answers to
all earlier requests finds the record of one of them, or all of them are spent. -/
theorem checksWait_of_checksFollow (deps : Deps) (orgId : OrgId) (key : String)
    (organizations : OrgId → Option OrgRow) (billingPlans : String → Option ℚ)
    (ls : List GatewayLabel) (hal : (gateway deps).Along
      (fun c a => RecordsLast orgId key c a ∧ ChecksFollow orgId key c a)
      (.init (.fresh organizations billingPlans)) ls) :
    (gateway deps).Along (ChecksWait orgId key) (.init (.fresh organizations billingPlans)) ls := by
  have hkept : (gateway deps).Along
      (fun c a => RecordKept orgId key c ∧ ChecksFollow orgId key c a)
      (.init (.fresh organizations billingPlans)) ls :=
    System.along_of_invariant (obeys_ownedBy deps)
      (fun _ _ _ hconf hi ha hstep => ⟨recordKept_step hconf hi ha.1 hstep, hi, ha.2⟩)
      (System.conforms_init _) (fun _ _ ⟨_, _, hmem⟩ => absurd hmem List.not_mem_nil) hal
  refine System.along_of_invariant (I := Genuine) (obeys deps)
    (fun c a d hconf hi ha hstep => ⟨genuine_step hconf hi hstep, ?_⟩)
    (System.conforms_init _) (genuine_init _ fun k record h => (by cases h)) hkept
  cases hstep with
  | start | drift => trivial
  | @command p i P cmd k r s hp hk hx =>
    intro hmiss e' he' hmiss'
    cases eq_of_misses hmiss
    rcases ha.2 rfl e' he' hmiss' with hspent | ⟨hcarries, hresult⟩
    · exact hspent
    · -- the request has left a record, which the check would have found
      obtain ⟨response, hresponse⟩ := Option.isSome_iff_exists.mp hresult
      obtain ⟨record, hv⟩ := record_of_result hconf hi ha.1 hcarries hresponse
      cases hv.symm.trans (value_of_redisGet (p := p) hx)

end CloudMesh.Gateway
