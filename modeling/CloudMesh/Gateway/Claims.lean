import CloudMesh.Gateway.Dedup

/-!
# Whose claim a leader touches

A claim is under the key for `leaderTtlSeconds`, and so is the result that replaces it. Nothing in
it says whose it is: a leader that is late writes to the key, or deletes it, whoever has claimed it
since. As long as no leader is late, nobody else becomes the leader before a claim has ended, and
what a leader has put under the key stays there.

## Main definitions

- `Marked.unexpired`, `Owns` — the time of a claim, and who has one
- `OwnClaims` — one owner at a time, and what it has written is under the key
- `Timely` — the condition on the leaders
- `ownClaims_of_timely` — nobody touches the claim of another
-/

namespace CloudMesh.Gateway

open Concurrent

section Definitions

variable (deps : Deps) (name : String) (stages : Pid → Stage) (m : Marked) (p : Pid)

/-- The caller has claimed the key and has not released it. -/
def Stage.holds : Stage → Bool
  | .leading | .torn | .stored _ | .announced (some _) => true
  | _ => false

/-- What the caller has put under the key; after a write that has failed it may be either. -/
def Stage.entry : Stage → Option RedisValue
  | .leading => some .processing
  | .stored response | .announced (some response) => some (.response response)
  | _ => none

/-- `leaderTtlSeconds` have not passed since the caller has last written the key. -/
def Marked.unexpired : Bool := (m.writtenAt p).any fun t => m.store.clock < t + leaderTtlMs deps

/-- The claim of the caller, or its result, has not ended. -/
def Owns : Prop := (stages p).holds = true ∧ m.unexpired deps p = true

/-- Nobody else has become the leader, and nobody else has touched the key. -/
structure OwnClaims : Prop where
  exclusive : ∀ p q, Owns deps stages m p → Owns deps stages m q → p = q
  kept : ∀ p v, Owns deps stages m p → (stages p).entry = some v →
    m.store.value (dedupKey name) = some v

/-- A leader that writes to the key or deletes it is not late, or nothing is under the key. -/
def Timely {name : String} (deps : Deps) (c : CallerConfig name) :
    Action sig Pid Drift (Work name) → Prop
  | .command e => e.cmd.writesTo name = true → stageOf c e.pid ≠ .idle →
      c.world.shared.unexpired deps e.pid = true ∨
        c.world.shared.store.value (dedupKey name) = none
  | .start .. | .drift _ => True

instance : Decidable (Owns deps stages m p) := inferInstanceAs (Decidable (_ ∧ _))

instance {name : String} (c : CallerConfig name) (a : Action sig Pid Drift (Work name)) :
    Decidable (Timely deps c a) :=
  match a with
  | .command _ => inferInstanceAs (Decidable (_ → _ → _))
  | .start .. | .drift _ => isTrue trivial

end Definitions

/-! ## The invariant -/

section Guarded

variable {deps : Deps} {name : String} {stages : Pid → Stage} {m m' : Marked} {p : Pid} {cmd : Cmd}
  {r : sig.Ans cmd} {i : Input} {stage : Stage}

/-- What an owner has written is under the key at least until the claim of the owner ends. -/
def Present (deps : Deps) (name : String) (stages : Pid → Stage) (m : Marked) (p : Pid) : Prop :=
  ∀ t, (stages p).holds = true → m.writtenAt p = some t → m.store.clock < t + leaderTtlMs deps →
    ∃ v expireAt, m.store.redis (dedupKey name) = some ⟨v, some expireAt⟩ ∧
      t + leaderTtlMs deps ≤ expireAt ∧ ∀ v', (stages p).entry = some v' → v = v'

structure Guarded (deps : Deps) (name : String) (stages : Pid → Stage) (m : Marked) : Prop where
  past : ∀ p t, m.writtenAt p = some t → t ≤ m.store.clock
  alone : ∀ p q, Owns deps stages m p → Owns deps stages m q → p = q
  present : ∀ p, Present deps name stages m p

theorem unexpired_iff : m.unexpired deps p = true ↔
    ∃ t, m.writtenAt p = some t ∧ m.store.clock < t + leaderTtlMs deps := by
  simp [Marked.unexpired, Option.any_eq_true]

theorem Guarded.own (hi : Guarded deps name stages m) : OwnClaims deps name stages m := by
  refine ⟨hi.alone, fun p v hp hv => ?_⟩
  obtain ⟨t, ht, hlt⟩ := unexpired_iff.mp hp.2
  obtain ⟨w, expireAt, hw, -, heq⟩ := hi.present p t hp.1 ht hlt
  rw [Store.value, hw, ← heq v hv]
  rfl

theorem Guarded.not_owns_of_none (hi : Guarded deps name stages m)
    (hnone : m.store.value (dedupKey name) = none) (q : Pid) : ¬Owns deps stages m q := by
  intro hq
  obtain ⟨t, ht, hlt⟩ := unexpired_iff.mp hq.2
  obtain ⟨v, expireAt, hv, -⟩ := hi.present q t hq.1 ht hlt
  rw [Store.value, hv] at hnone
  cases hnone

/-- Nobody but a leader that is not late owns the key. -/
theorem Guarded.not_owns_of_timely (hi : Guarded deps name stages m)
    (hp : (stages p).holds = true)
    (htimely : m.unexpired deps p = true ∨ m.store.value (dedupKey name) = none) :
    ∀ q ≠ p, ¬Owns deps stages m q := by
  intro q hne hq
  rcases htimely with hlive | hnone
  · exact hne (hi.alone q p hq ⟨hp, hlive⟩)
  · exact hi.not_owns_of_none hnone q hq

/-! ### One command -/

/-- The caller does not touch what is under the key. -/
theorem Guarded.frame (hi : Guarded deps name stages m) (hclock : m'.store.clock = m.store.clock)
    (hwritten : m'.writtenAt = m.writtenAt)
    (hredis : m'.store.redis (dedupKey name) = m.store.redis (dedupKey name))
    (hholds : stage.holds = true → (stages p).holds = true)
    (hentry : ∀ v, stage.entry = some v → (stages p).entry = some v) :
    Guarded deps name (Function.update stages p stage) m' := by
  have hold : ∀ q, (Function.update stages p stage q).holds = true → (stages q).holds = true := by
    intro q hq
    by_cases hqp : q = p
    · subst hqp
      rw [Function.update_self] at hq
      exact hholds hq
    · rwa [Function.update_of_ne hqp] at hq
  have howns : ∀ q, Owns deps (Function.update stages p stage) m' q → Owns deps stages m q := by
    intro q hq
    refine ⟨hold q hq.1, ?_⟩
    have hlive := hq.2
    rwa [Marked.unexpired, hwritten, hclock] at hlive
  refine ⟨?_, fun q q' hq hq' => hi.alone q q' (howns q hq) (howns q' hq'), fun q => ?_⟩
  · rw [hwritten, hclock]
    exact hi.past
  · intro t hq ht hlt
    rw [hwritten] at ht
    rw [hclock] at hlt
    obtain ⟨v, expireAt, hv, hle, heq⟩ := hi.present q t (hold q hq) ht hlt
    refine ⟨v, expireAt, hredis.trans hv, hle, fun v' hv' => heq v' ?_⟩
    by_cases hqp : q = p
    · subst hqp
      rw [Function.update_self] at hv'
      exact hentry v' hv'
    · rwa [Function.update_of_ne hqp] at hv'

/-- Nobody else owns the key when the caller writes it or deletes it. -/
theorem Guarded.write (hi : Guarded deps name stages m) (hclock : m'.store.clock = m.store.clock)
    (hothers : ∀ q ≠ p, m'.writtenAt q = m.writtenAt q)
    (hfree : ∀ q ≠ p, ¬Owns deps stages m q)
    (hpast : ∀ t, m'.writtenAt p = some t → t ≤ m.store.clock)
    (hp : Present deps name (Function.update stages p stage) m' p) :
    Guarded deps name (Function.update stages p stage) m' := by
  have hnot : ∀ q ≠ p, ¬Owns deps (Function.update stages p stage) m' q := by
    rintro q hne ⟨hq, hlive⟩
    rw [Function.update_of_ne hne] at hq
    rw [Marked.unexpired, hothers q hne, hclock] at hlive
    exact hfree q hne ⟨hq, hlive⟩
  refine ⟨fun q t ht => ?_, fun q q' hq hq' => ?_, fun q => ?_⟩
  · rw [hclock]
    by_cases hqp : q = p
    · exact hpast t (hqp ▸ ht)
    · exact hi.past q t ((hothers q hqp).symm.trans ht)
  · have hqp : q = p := by_contra fun hne => hnot q hne hq
    have hq'p : q' = p := by_contra fun hne => hnot q' hne hq'
    rw [hqp, hq'p]
  · by_cases hqp : q = p
    · exact hqp ▸ hp
    · exact fun t hq ht hlt => absurd ⟨hq, unexpired_iff.mpr ⟨t, ht, hlt⟩⟩ (hnot q hqp)

/-- A command that leaves the key alone makes no owner. -/
theorem holds_after (hallows : stage.Allows deps name cmd) (hc : cmd.writesTo name = false) :
    ((stage.after name ⟨cmd, r⟩).holds = true → stage.holds = true) ∧
      ∀ v, (stage.after name ⟨cmd, r⟩).entry = some v → stage.entry = some v := by
  cases hallows with
  | claim | store | release => simp [Cmd.writesTo] at hc
  | lead c hc' | fallBack c hc' =>
    rw [Stage.after, hc', if_neg Bool.false_ne_true]
    exact ⟨id, fun _ h => h⟩
  | announce | fail | subscribe | wait =>
    rcases r with err | _ <;>
      simp [Stage.after, Cmd.touches, Stage.next, Stage.holds, Stage.entry]
  | look | lookAgain =>
    rcases r with err | _ | value
    · simp [Stage.after, Cmd.touches, Stage.next, Stage.holds, Stage.entry]
    · simp [Stage.after, Cmd.touches, Stage.next, Stage.holds, Stage.entry]
    · cases value <;> simp [Stage.after, Cmd.touches, Stage.next, Stage.holds, Stage.entry]

theorem not_writesKey (hc : cmd.writesTo name = false) : writesKey name ⟨cmd, r⟩ = false := by
  unfold writesKey
  split
  · rename_i heq
    cases heq
    exact hc
  · rename_i heq
    cases heq
    exact hc
  · rfl

theorem marked_of_exec (hx : Marked.exec deps name p cmd i m = some (r, m')) :
    exec deps.similarity p cmd i m.store = some (r, m'.store) ∧ m'.writtenAt =
      if writesKey name ⟨cmd, r⟩ then Function.update m.writtenAt p (some m.store.clock)
      else m.writtenAt := by
  obtain ⟨⟨r', s⟩, hs, heq⟩ := Option.map_eq_some_iff.mp hx
  cases heq
  exact ⟨hs, rfl⟩

/-- The key has been free, and it is claimed unless the command has failed; or nothing happens. -/
theorem claimed_of_exec {key : String} {value : RedisValue} {ttlMs : ℕ} {s s' : Store}
    {r : sig.Ans (.redisSetNx key value ttlMs)}
    (hs : exec deps.similarity p (.redisSetNx key value ttlMs) i s = some (r, s')) :
    (s.value key = none ∧ (r = .ok true → s'.redis key = some ⟨value, s.expiry ttlMs⟩)) ∨
      (s' = s ∧ r ≠ .ok true) := by
  have hperform : ∀ r', s.perform deps.similarity (.redisSetNx key value ttlMs) i.choice =
      some (r', s') → (s.value key = none ∧ s'.redis key = some ⟨value, s.expiry ttlMs⟩) ∨
        (s' = s ∧ r' ≠ .ok true) := by
    intro r' h
    simp only [Store.perform] at h
    split at h <;> cases h
    · exact .inr ⟨rfl, by simp⟩
    · rename_i hfree
      exact .inl ⟨by simp [Store.value, hfree], Function.update_self _ _ _⟩
  rcases exec_cases hs with h | ⟨err, rfl, rfl | ⟨r', h⟩⟩
  · exact (hperform r h).imp (fun hset => ⟨hset.1, fun _ => hset.2⟩) id
  · exact .inr ⟨rfl, by simp⟩
  · exact (hperform r' h).imp (fun hset => ⟨hset.1, by simp⟩) fun hsame => ⟨hsame.1, by simp⟩

theorem redis_of_redisSet {key : String} {value : RedisValue} {ttlMs : ℕ} {s s' : Store}
    {choice : Choice} {r : sig.Ans (.redisSet key value ttlMs)}
    (h : s.perform deps.similarity (.redisSet key value ttlMs) choice = some (r, s')) :
    s'.redis key = some ⟨value, s.expiry ttlMs⟩ := by
  cases h
  exact Function.update_self _ _ _

theorem guarded_command (hi : Guarded deps name stages m)
    (hallows : (stages p).Allows deps name cmd)
    (hx : Marked.exec deps name p cmd i m = some (r, m'))
    (htimely : cmd.writesTo name = true → stages p ≠ .idle →
      m.unexpired deps p = true ∨ m.store.value (dedupKey name) = none) :
    Guarded deps name (Function.update stages p ((stages p).after name ⟨cmd, r⟩)) m' := by
  obtain ⟨hs, hwritten⟩ := marked_of_exec hx
  have hclock := clock_of_effect (effect_of_exec hs)
  cases hc : cmd.writesTo name with
  | false =>
    have hafter := holds_after (r := r) hallows hc
    exact hi.frame hclock (by rw [hwritten, not_writesKey hc, if_neg Bool.false_ne_true])
      (redis_of_effect (effect_of_exec hs) hc) hafter.1 hafter.2
  | true =>
    have hothers : ∀ q ≠ p, m'.writtenAt q = m.writtenAt q := by
      intro q hne
      rw [hwritten]
      split
      · exact Function.update_of_ne hne _ _
      · rfl
    have hpast : ∀ t, m'.writtenAt p = some t → t ≤ m.store.clock := by
      intro t ht
      rw [hwritten] at ht
      split at ht
      · rw [Function.update_self] at ht
        cases ht
        exact le_refl _
      · exact hi.past p t ht
    have hfree : stages p ≠ .idle → (stages p).holds = true → ∀ q ≠ p, ¬Owns deps stages m q :=
      fun hne hp => hi.not_owns_of_timely hp (htimely hc hne)
    have hwrite (stage' : Stage) (hfree : ∀ q ≠ p, ¬Owns deps stages m q)
        (hp : Present deps name (Function.update stages p stage') m' p) :
        Guarded deps name (Function.update stages p stage') m' :=
      hi.write hclock hothers hfree hpast hp
    generalize hstage : stages p = stage at hallows hfree ⊢
    cases hallows with
    | announce | fail | look | subscribe | lookAgain | wait => cases hc
    | lead c hf | fallBack c hf => exact nomatch hc.symm.trans (writesTo_of_foreign hf)
    | claim =>
      rcases claimed_of_exec hs with ⟨hnone, hr⟩ | ⟨hsame, hr⟩
      · -- the key was free, so that nobody owns a claim
        refine hwrite _ (fun q _ => hi.not_owns_of_none hnone q) fun t hp ht hlt => ?_
        rcases r with err | _ | _
        · simp [Stage.after, Cmd.touches, Stage.next, Stage.holds] at hp
        · simp [Stage.after, Cmd.touches, Stage.next, Stage.holds] at hp
        · simp only [hwritten, writesKey, decide_true, if_true, Function.update_self,
            Option.some.injEq] at ht
          subst ht
          refine ⟨_, _, hr rfl, le_refl _, fun v' hv' => ?_⟩
          simpa [Stage.after, Cmd.touches, Stage.next, Stage.entry] using hv'
      · -- the claim was refused: the key is as it was
        refine hi.frame hclock ?_ (by rw [hsame]) ?_ ?_ <;> rcases r with err | _ | _ <;>
          simp_all [Stage.after, Cmd.touches, Stage.next, Stage.holds, Stage.entry, writesKey]
    | store response =>
      refine hwrite _ (hfree (by simp) rfl) fun t hp ht hlt => ?_
      rcases r with err | _
      · -- the old claim is still under the key, or the result is
        simp only [hwritten, writesKey, Bool.false_eq_true] at ht
        have htorn : ∀ v v', (Function.update stages p
            (Stage.after name .leading ⟨.redisSet (dedupKey name) (.response response)
              (leaderTtlMs deps), .error err⟩) p).entry = some v' → v = v' := by
          intro v v' hv'
          simp [Stage.after, Cmd.touches, Stage.next, Stage.entry] at hv'
        rcases exec_cases hs with h | ⟨_, -, hsame | ⟨r', h⟩⟩
        · cases h
        · rw [hclock] at hlt
          obtain ⟨v, expireAt, hv, hle, -⟩ := hi.present p t (hstage ▸ rfl) ht hlt
          exact ⟨v, expireAt, by rw [hsame, hv], hle, htorn v⟩
        · refine ⟨.response response, m.store.clock + leaderTtlMs deps, redis_of_redisSet h, ?_,
            htorn _⟩
          have := hi.past p t ht
          omega
      · simp only [hwritten, writesKey, decide_true, if_true, Function.update_self,
          Option.some.injEq] at ht
        subst ht
        refine ⟨_, _, redis_of_redisSet (perform_of_exec hs), le_refl _, fun v' hv' => ?_⟩
        simpa [Stage.after, Cmd.touches, Stage.next, Stage.entry] using hv'
    | release _ h =>
      refine hwrite _ (hfree (by rcases h with rfl | rfl | ⟨_, rfl⟩ <;> simp)
        (by rcases h with rfl | rfl | ⟨_, rfl⟩ <;> rfl)) fun t hp => ?_
      rcases h with rfl | rfl | ⟨response, rfl⟩ <;> rcases r with err | _ <;>
        simp [Stage.after, Cmd.touches, Stage.next, Stage.holds] at hp

/-- What expires has not been claimed for longer. -/
theorem guarded_drift {e : Drift} {s : Store} (hi : Guarded deps name stages m)
    (h : drift e m.store = some s) : Guarded deps name stages { m with store := s } := by
  cases e with
  | tick d =>
    have hclock : s.clock = m.store.clock + d := by
      cases h
      rfl
    have howns : ∀ q, Owns deps stages { m with store := s } q → Owns deps stages m q := by
      rintro q ⟨hq, hlive⟩
      obtain ⟨t, ht, hlt⟩ := unexpired_iff.mp hlive
      refine ⟨hq, unexpired_iff.mpr ⟨t, ht, ?_⟩⟩
      simp only [hclock] at hlt
      omega
    refine ⟨fun q t ht => ?_, fun q q' hq hq' => hi.alone q q' (howns q hq) (howns q' hq'),
      fun q t hq ht hlt => ?_⟩
    · have := hi.past q t ht
      simp only [hclock]
      omega
    · simp only [hclock] at hlt
      obtain ⟨v, expireAt, hv, hle, heq⟩ := hi.present q t hq ht (by omega)
      refine ⟨v, expireAt, ?_, hle, heq⟩
      cases h
      exact Option.filter_eq_some_iff.mpr ⟨hv, decide_eq_true (by omega)⟩
  | setOrganization | setBillingPlan =>
    cases h
    exact ⟨hi.past, hi.alone, hi.present⟩

end Guarded

/-! ## Runs -/

section Runs

variable {deps : Deps} {name : String} {c d : CallerConfig name}
  {a : Action sig Pid Drift (Work name)}

theorem guarded_init (s : Store) :
    Guarded deps name (stageOf (.init (.fresh s) : CallerConfig name)) (.fresh s) :=
  ⟨nofun, fun _ _ hp => absurd hp.1 Bool.false_ne_true, fun _ _ hp => nomatch hp⟩

theorem guarded_step (hconf : CallerConforms deps c)
    (hi : Guarded deps name (stageOf c) c.world.shared) (ha : Timely deps c a)
    (hstep : (callers deps name).Steps c a d) : Guarded deps name (stageOf d) d.world.shared := by
  cases hstep with
  | start => exact hi
  | drift hx =>
    obtain ⟨s, hs, rfl⟩ := Option.map_eq_some_iff.mp hx
    exact guarded_drift hi hs
  | command hp hk hx =>
    rw [stageOf_after]
    exact guarded_command hi (hconf.allowed hp hk) hx ha

end Runs

/-- If no leader is late with what it writes to the key or deletes, nobody becomes the leader before
the claim of another has ended, and every owner finds what it has written. -/
theorem ownClaims_of_timely (deps : Deps) (name : String) (s : Store)
    (ls : List (Label Pid Input Drift (Work name))) (c : CallerConfig name)
    (hrun : (callers deps name).run (.init (.fresh s)) ls = some c)
    (htimely : (callers deps name).Along (Timely deps) (.init (.fresh s)) ls) :
    OwnClaims deps name (stageOf c) c.world.shared :=
  Guarded.own (System.invariant_run (obeys_stages deps name)
    (fun _ _ _ hconf hi ha hstep => guarded_step hconf hi ha hstep) (System.conforms_init _)
    (guarded_init s) hrun htimely)

/-! ### Claims that expire -/

/-- The claim of the first caller expires, and it has not noticed when the second one claims the
key. -/
def expired : List GreetingLabel :=
  ([.start ⟨tenantA, 0⟩ asking, .start ⟨tenantA, 1⟩ asking, .start ⟨tenantA, 2⟩ asking] :
    List GreetingLabel) ++
  calls ⟨tenantA, 0⟩ [.nothing] ++ ([.drift (.tick 30000)] : List GreetingLabel) ++
  calls ⟨tenantA, 1⟩ [.nothing]

/-- The second caller stores its result before the first one answers. -/
def apart : List GreetingLabel :=
  expired ++ calls ⟨tenantA, 1⟩ [.chat (.ok (greeted "chatcmpl-1")), .nothing]

theorem ownClaims_of_timely_apart :
    ∃ c, (callers plainDeps "greeting").run (.init (.fresh (.fresh (fun _ => none) fun _ => none)))
        apart = some c ∧ OwnClaims plainDeps "greeting" (stageOf c) c.world.shared ∧
      Owns plainDeps (stageOf c) c.world.shared ⟨tenantA, 1⟩ := by
  have hres : ((callers plainDeps "greeting").run
      (.init (.fresh (.fresh (fun _ => none) fun _ => none))) apart).map
        (fun c => decide (Owns plainDeps (stageOf c) c.world.shared ⟨tenantA, 1⟩)) = some true := by
    decide
  obtain ⟨c, hrun, hc⟩ := Option.map_eq_some_iff.mp hres
  exact ⟨c, hrun, ownClaims_of_timely plainDeps "greeting" _ _ c hrun (by decide),
    of_decide_eq_true hc⟩

/-- The first caller fails and deletes the key, and a third one claims it. -/
def late : List GreetingLabel :=
  expired ++
  calls ⟨tenantA, 0⟩ [.chat (.error (.error "provider exploded")), .nothing] ++
  calls ⟨tenantA, 2⟩ [.nothing]

theorem ownClaims_fails :
    ∃ c, (callers plainDeps "greeting").run (.init (.fresh (.fresh (fun _ => none) fun _ => none)))
        late = some c ∧ ¬OwnClaims plainDeps "greeting" (stageOf c) c.world.shared := by
  have hres : ((callers plainDeps "greeting").run
      (.init (.fresh (.fresh (fun _ => none) fun _ => none))) late).map
        (fun c => decide (Owns plainDeps (stageOf c) c.world.shared ⟨tenantA, 1⟩ ∧
          Owns plainDeps (stageOf c) c.world.shared ⟨tenantA, 2⟩)) = some true := by
    decide
  obtain ⟨c, hrun, hc⟩ := Option.map_eq_some_iff.mp hres
  obtain ⟨hone, htwo⟩ := of_decide_eq_true hc
  exact ⟨c, hrun, fun h => absurd (h.exclusive _ _ hone htwo) (by decide)⟩

end CloudMesh.Gateway
