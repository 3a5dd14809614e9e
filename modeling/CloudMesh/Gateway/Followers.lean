import CloudMesh.Gateway.Dedup

/-!
# Followers and the signal they wait for

A follower looks at the key, subscribes and looks again before it waits. The second look finds a
result that has been stored meanwhile; it does not tell a leader that has failed and sent its signal
from one that has not claimed the key yet. A follower is woken unless a leader has deleted the key
and published its failure between the follower's claim and its second look.

## Main definitions

- `Awaited` — a follower that waits has been signalled, or somebody still owes it a signal
- `Missed` — a leader has failed since the follower's claim was refused
- `Unmissed` — the condition on the second look
- `awaited_of_unmissed` — nobody waits in vain
-/

namespace CloudMesh.Gateway

open Concurrent

section Definitions

variable {name : String}

def Cmd.publishesTo (name : String) : Cmd → Bool
  | .publish channel _ => channel = resultChannel name
  | _ => false

/-- An outcome has been published after the last command of `p`. -/
def Signalled (name : String) (h : List GatewayEvent) (p : Pid) : Prop :=
  ∃ e ∈ h.takeWhile fun e => e.pid ≠ p, e.cmd.publishesTo name = true

instance (name : String) (h : List GatewayEvent) (p : Pid) : Decidable (Signalled name h p) :=
  inferInstanceAs (Decidable (∃ e ∈ _, _))

/-- A follower that waits has been signalled, or a leader that runs has yet to publish. -/
def Awaited (c : CallerConfig name) (p : Pid) : Prop :=
  stageOf c p = .waiting → Signalled name c.world.history p ∨ ∃ q, (stageOf c q).owes = true ∧
    ∃ Q, c.procs q = some Q ∧ Q.prog.returned = none

/-- Redis answers the callers. -/
def Answered (name : String) (_ : CallerConfig name) : Action sig Pid Drift (Work name) → Prop
  | .command e => e.cmd.touches name = true → e.ans.isOk = true
  | .start .. | .drift _ => True

def Cmd.claims (name : String) : Cmd → Bool
  | .redisSetNx key .. => key = dedupKey name
  | _ => false

def Cmd.deletes (name : String) : Cmd → Bool
  | .redisDel key => key = dedupKey name
  | _ => false

/-- What has happened since the last claim of `p`. -/
def sinceClaim (name : String) (p : Pid) (h : List GatewayEvent) : List GatewayEvent :=
  h.takeWhile fun e => !(decide (e.pid = p) && e.cmd.claims name)

/-- Since the claim of `p` a leader has deleted the key and published its outcome. -/
def Missed (name : String) (p : Pid) (h : List GatewayEvent) : Prop :=
  ∃ del ∈ sinceClaim name p h, del.cmd.deletes name = true ∧
    ∃ pub ∈ sinceClaim name p h, pub.pid = del.pid ∧ pub.cmd.publishesTo name = true

instance (name : String) (p : Pid) (h : List GatewayEvent) : Decidable (Missed name p h) :=
  inferInstanceAs (Decidable (∃ del ∈ _, _ ∧ ∃ pub ∈ _, _))

/-- The claim of the caller was refused, and it does not wait yet. -/
def Stage.looking : Stage → Bool
  | .refused | .looked | .subscribed => true
  | _ => false

/-- When a second look finds nothing under the key, no leader has failed since the follower's claim
was refused; and the key does not expire while a follower has still to look. -/
def Unmissed (name : String) (c : CallerConfig name) : Action sig Pid Drift (Work name) → Prop
  | .command e => stageOf c e.pid = .subscribed →
      c.world.shared.store.value (dedupKey name) = none → ¬Missed name e.pid c.world.history
  | .drift e => (∃ e' ∈ c.world.history, (stageOf c e'.pid).looking = true) →
      (c.world.shared.store.value (dedupKey name)).isSome = true →
        ∀ s ∈ drift e c.world.shared.store, (s.value (dedupKey name)).isSome = true
  | .start .. => True

instance (c : CallerConfig name) (a : Action sig Pid Drift (Work name)) :
    Decidable (Answered name c a) :=
  match a with
  | .command _ => inferInstanceAs (Decidable (_ → _))
  | .start .. | .drift _ => isTrue trivial

instance (c : CallerConfig name) (a : Action sig Pid Drift (Work name)) :
    Decidable (Unmissed name c a) :=
  match a with
  | .command _ => inferInstanceAs (Decidable (_ → _ → ¬_))
  | .drift _ => inferInstanceAs (Decidable ((∃ _ ∈ _, _) → _ → ∀ _ ∈ _, _))
  | .start .. => isTrue trivial

end Definitions

/-! ## The mark of a leader -/

section Led

variable {deps : Deps} {name : String} {stages : Pid → Stage} {s s' : Store} {p : Pid} {cmd : Cmd}
  {r : sig.Ans cmd} {i : Input}

/-- The mark of a leader at work is one of a leader at work. -/
def Led (name : String) (stages : Pid → Stage) (s : Store) : Prop :=
  s.value (dedupKey name) = some .processing → ∃ q, stages q = .leading

theorem eq_ok_of_isOk {ε α : Type} {x : Except ε α} (h : x.isOk = true) : ∃ a, x = .ok a := by
  cases x with
  | ok a => exact ⟨a, rfl⟩
  | error err => cases h

/-- The mark of another leader stays. -/
theorem Led.of_ne (hi : Led name stages s) (hs : s'.value (dedupKey name) = some .processing →
    s.value (dedupKey name) = some .processing) (hp : stages p ≠ .leading) (stage : Stage) :
    Led name (Function.update stages p stage) s' := by
  intro hv
  obtain ⟨q, hq⟩ := hi (hs hv)
  have hqp : q ≠ p := fun heq => hp (heq ▸ hq)
  exact ⟨q, (Function.update_of_ne hqp _ _).trans hq⟩

theorem led_command (hi : Led name stages s) (hallows : (stages p).Allows deps name cmd)
    (hx : exec deps.similarity p cmd i s = some (r, s'))
    (hans : cmd.touches name = true → r.isOk = true) :
    Led name (Function.update stages p ((stages p).after name ⟨cmd, r⟩)) s' := by
  have hkept : cmd.writesTo name = false → s'.value (dedupKey name) = some .processing →
      s.value (dedupKey name) = some .processing := by
    intro hc hv
    rwa [Store.value, ← redis_of_effect (effect_of_exec hx) hc]
  have hwork : Foreign name cmd → Led name
      (Function.update stages p ((stages p).after name ⟨cmd, r⟩)) s' := by
    intro hc
    rw [Stage.after, hc, if_neg Bool.false_ne_true, Function.update_eq_self]
    exact fun hv => hi (hkept (writesTo_of_foreign hc) hv)
  generalize hstage : stages p = stage at hallows hwork ⊢
  have hne : stage ≠ .leading → stages p ≠ .leading := fun h => hstage ▸ h
  cases hallows with
  | claim =>
    obtain ⟨claimed, rfl⟩ := eq_ok_of_isOk (hans (by simp [Cmd.touches]))
    have hperform := perform_of_exec hx
    simp only [Store.perform] at hperform
    split at hperform <;> cases hperform
    · exact hi.of_ne id (hne (by simp)) _
    · intro _
      exact ⟨p, by simp [Stage.after, Cmd.touches, Stage.next]⟩
  | lead c hc => exact hwork hc
  | fallBack c hc => exact hwork hc
  | store response =>
    obtain ⟨_, rfl⟩ := eq_ok_of_isOk (hans (by simp [Cmd.touches]))
    cases perform_of_exec hx
    intro hv
    simp [Store.value, Store.setKey] at hv
  | release =>
    obtain ⟨_, rfl⟩ := eq_ok_of_isOk (hans (by simp [Cmd.touches]))
    cases perform_of_exec hx
    intro hv
    simp [Store.value, Store.setKey] at hv
  | announce | fail | look | subscribe | lookAgain | wait =>
    exact hi.of_ne (hkept rfl) (hne (by simp)) _

end Led

/-! ## Waiting -/

section Waiting

variable {deps : Deps} {name : String} {stage : Stage} {cmd : Cmd} {r : sig.Ans cmd}

/-- A leader that owes its outcome goes on owing it until it publishes. -/
theorem owes_after (hallows : stage.Allows deps name cmd) (howes : stage.owes = true)
    (hans : cmd.touches name = true → r.isOk = true) :
    (stage.after name ⟨cmd, r⟩).owes = true ∨ cmd.publishesTo name = true := by
  cases hallows with
  | lead c hc =>
    rw [Stage.after, hc, if_neg Bool.false_ne_true]
    exact .inl rfl
  | store response =>
    obtain ⟨_, rfl⟩ := eq_ok_of_isOk (hans (by simp [Cmd.touches]))
    exact .inl (by simp [Stage.after, Cmd.touches, Stage.next, Stage.owes])
  | release _ h =>
    obtain ⟨_, rfl⟩ := eq_ok_of_isOk (hans (by simp [Cmd.touches]))
    rcases h with rfl | rfl | ⟨response, rfl⟩ <;>
      exact .inl (by simp [Stage.after, Cmd.touches, Stage.next, Stage.owes])
  | announce response => exact .inr (by simp [Cmd.publishesTo])
  | fail => exact .inr (by simp [Cmd.publishesTo])
  | claim | look | subscribe | lookAgain | wait | fallBack => cases howes

/-- A follower begins to wait when its second look has found no result. -/
theorem waiting_after (hallows : stage.Allows deps name cmd)
    (hwait : stage.after name ⟨cmd, r⟩ = .waiting) : stage = .subscribed ∧
      ((⟨cmd, r⟩ : Exchange sig) = ⟨.redisGet (dedupKey name), .ok none⟩ ∨
        (⟨cmd, r⟩ : Exchange sig) = ⟨.redisGet (dedupKey name), .ok (some .processing)⟩) := by
  unfold Stage.after at hwait
  split at hwait
  · cases hallows with
    | lookAgain =>
      refine ⟨rfl, ?_⟩
      rcases r with err | _ | value
      · cases hwait
      · exact .inl rfl
      · cases value with
        | processing => exact .inr rfl
        | text | count | flags | record | response => cases hwait
    | claim => rcases r with err | _ | _ <;> cases hwait
    | lead c hc | fallBack c hc => exact absurd hc (by simp_all [Foreign])
    | store response => rcases r with err | _ <;> cases hwait
    | release _ h =>
      rcases h with rfl | rfl | ⟨response, rfl⟩ <;> rcases r with err | _ <;> cases hwait
    | announce response => rcases r with err | _ <;> cases hwait
    | fail => rcases r with err | _ <;> cases hwait
    | look =>
      rcases r with err | _ | value
      · cases hwait
      · cases hwait
      · cases value <;> cases hwait
    | subscribe => rcases r with err | _ <;> cases hwait
    | wait since => cases hwait
  · rename_i hc
    subst hwait
    cases hallows with
    | wait since => exact absurd (by simp [Cmd.touches]) hc
    | release _ h => rcases h with h | h | ⟨_, h⟩ <;> cases h

/-- A leader that has deleted the key publishes its failure next. -/
theorem publishes_of_released (hallows : Stage.released.Allows deps name cmd) :
    cmd.publishesTo name = true := by
  cases hallows with
  | release _ h => rcases h with h | h | ⟨_, h⟩ <;> cases h
  | fail => simp [Cmd.publishesTo]

/-- What is under the key stays there, or a leader deletes it. -/
theorem isSome_after {s s' : Store} {p : Pid} {i : Input} (hallows : stage.Allows deps name cmd)
    (hx : exec deps.similarity p cmd i s = some (r, s'))
    (hans : cmd.touches name = true → r.isOk = true)
    (hthere : (s.value (dedupKey name)).isSome = true) :
    (s'.value (dedupKey name)).isSome = true ∨
      cmd.deletes name = true ∧ stage.after name ⟨cmd, r⟩ = .released := by
  have hkept : cmd.writesTo name = false → (s'.value (dedupKey name)).isSome = true := by
    intro hc
    rwa [Store.value, redis_of_effect (effect_of_exec hx) hc]
  cases hallows with
  | claim =>
    obtain ⟨claimed, rfl⟩ := eq_ok_of_isOk (hans (by simp [Cmd.touches]))
    have hperform := perform_of_exec hx
    simp only [Store.perform] at hperform
    split at hperform <;> cases hperform
    · exact .inl hthere
    · exact .inl (by simp [Store.value, Store.setKey])
  | lead c hc | fallBack c hc => exact .inl (hkept (writesTo_of_foreign hc))
  | store response =>
    obtain ⟨_, rfl⟩ := eq_ok_of_isOk (hans (by simp [Cmd.touches]))
    cases perform_of_exec hx
    exact .inl (by simp [Store.value, Store.setKey])
  | release _ h =>
    obtain ⟨_, rfl⟩ := eq_ok_of_isOk (hans (by simp [Cmd.touches]))
    refine .inr ⟨by simp [Cmd.deletes], ?_⟩
    rcases h with rfl | rfl | ⟨response, rfl⟩ <;> simp [Stage.after, Cmd.touches, Stage.next]
  | announce | fail | look | subscribe | lookAgain | wait => exact .inl (hkept rfl)

/-- A caller that looks has looked before, or its claim has just been refused. -/
theorem looking_after (hallows : stage.Allows deps name cmd)
    (hlook : (stage.after name ⟨cmd, r⟩).looking = true) :
    stage.looking = true ∧ cmd.claims name = false ∨
      (⟨cmd, r⟩ : Exchange sig) = ⟨.redisSetNx (dedupKey name) .processing (leaderTtlMs deps),
        .ok false⟩ := by
  unfold Stage.after at hlook
  split at hlook
  · cases hallows with
    | claim =>
      rcases r with err | _ | _
      · cases hlook
      · exact .inr rfl
      · cases hlook
    | look | subscribe | lookAgain => exact .inl ⟨rfl, rfl⟩
    | lead c hc | fallBack c hc => exact absurd hc (by simp_all [Foreign])
    | store response => rcases r with err | _ <;> cases hlook
    | release _ h =>
      rcases h with rfl | rfl | ⟨response, rfl⟩ <;> rcases r with err | _ <;> cases hlook
    | announce response => rcases r with err | _ <;> cases hlook
    | fail => rcases r with err | _ <;> cases hlook
    | wait since => cases hlook
  · rename_i hc
    cases hallows with
    | lead | fallBack => cases hlook
    | release _ h => exact absurd (by simp [Cmd.touches]) hc
    | _ => exact absurd (by simp [Cmd.touches]) hc

end Waiting

section Steps

variable {deps : Deps} {name : String} {c d : CallerConfig name}
  {a : Action sig Pid Drift (Work name)}

theorem Signalled.cons {h : List GatewayEvent} {e : GatewayEvent} {p : Pid}
    (hp : Signalled name h p) (he : e.pid ≠ p) : Signalled name (e :: h) p := by
  obtain ⟨e', he', hpublish⟩ := hp
  refine ⟨e', ?_, hpublish⟩
  rw [List.takeWhile_cons_of_pos (by simpa using he)]
  exact List.mem_cons_of_mem _ he'

theorem signalled_of_publish {h : List GatewayEvent} {e : GatewayEvent} {p : Pid}
    (hpublish : e.cmd.publishesTo name = true) (he : e.pid ≠ p) :
    Signalled name (e :: h) p := by
  refine ⟨e, ?_, hpublish⟩
  rw [List.takeWhile_cons_of_pos (by simpa using he)]
  exact List.mem_cons_self

theorem mem_sinceClaim_cons {h : List GatewayEvent} {e e' : GatewayEvent} {p : Pid}
    (he : e.pid ≠ p ∨ e.cmd.claims name = false) :
    e' ∈ sinceClaim name p (e :: h) ↔ e' = e ∨ e' ∈ sinceClaim name p h := by
  have hkeep : (!(decide (e.pid = p) && e.cmd.claims name)) = true := by
    rcases he with he | he <;> simp [he]
  simp only [sinceClaim, List.takeWhile_cons, hkeep, if_true, List.mem_cons]

/-- The key is there, or a leader has deleted it since the claim of `p` and has published its
failure since, or is about to. -/
def InSight (c : CallerConfig name) (p : Pid) : Prop :=
  (c.world.shared.store.value (dedupKey name)).isSome = true ∨
    ∃ del ∈ sinceClaim name p c.world.history, del.cmd.deletes name = true ∧
      (stageOf c del.pid = .released ∨ ∃ pub ∈ sinceClaim name p c.world.history,
        pub.pid = del.pid ∧ pub.cmd.publishesTo name = true)

/-- Marks are of leaders at work, who looks has not lost sight of its leader, and nobody waits in
vain. -/
structure Attended (c : CallerConfig name) : Prop where
  led : Led name (stageOf c) c.world.shared.store
  inSight : ∀ p, (stageOf c p).looking = true → InSight c p
  owed : ∀ p, stageOf c p = .waiting →
    Signalled name c.world.history p ∨ ∃ q, (stageOf c q).owes = true

theorem attended_init {s : Store} (hs : s.value (dedupKey name) ≠ some .processing) :
    Attended (.init (.fresh s) : CallerConfig name) :=
  ⟨fun h => absurd h hs, fun _ h => (by cases h), fun _ h => nomatch h⟩

/-- Who is at a stage has done something. -/
theorem exists_mem_of_stage {p : Pid} (h : stageOf c p ≠ .idle) :
    ∃ e ∈ c.world.history, e.pid = p := by
  by_contra hnone
  have hnil : transcript p c.world.history = [] :=
    transcript_eq_nil.mpr fun e he heq => hnone ⟨e, he, heq⟩
  rw [stageOf, hnil] at h
  exact h rfl

/-- A claim is refused when the key is there. -/
theorem isSome_of_refused {p : Pid} {i : Input} {s s' : Store} {value : RedisValue} {ttlMs : ℕ}
    (hx : exec deps.similarity p (.redisSetNx (dedupKey name) value ttlMs) i s =
      some (.ok false, s')) : (s'.value (dedupKey name)).isSome = true := by
  have hperform := perform_of_exec hx
  simp only [Store.perform] at hperform
  split at hperform <;> cases hperform
  rename_i entry hentry
  simp [Store.value, hentry]

/-- A command other than the claim of `p` itself keeps what `p` has to look for. -/
theorem InSight.command {p q : Pid} {cmd : Cmd} {r : sig.Ans cmd} {i : Input} {s' : Marked}
    {procs : Pid → Option (Proc sig Pid (Work name) (Except Thrown ChatResponse))}
    (hi : InSight c q) (hallows : (stageOf c p).Allows deps name cmd)
    (hx : exec deps.similarity p cmd i c.world.shared.store = some (r, s'.store))
    (hans : cmd.touches name = true → r.isOk = true) (hq : p ≠ q ∨ cmd.claims name = false) :
    InSight (⟨c.world.after ⟨p, cmd, r⟩ s', procs⟩ : CallerConfig name) q := by
  have hmem := fun e' => @mem_sinceClaim_cons name c.world.history ⟨p, cmd, r⟩ e' q hq
  have hstage : ∀ p', stageOf (⟨c.world.after ⟨p, cmd, r⟩ s', procs⟩ : CallerConfig name) p' =
      Function.update (stageOf c) p ((stageOf c p).after name ⟨cmd, r⟩) p' :=
    fun p' => congrFun stageOf_after p'
  unfold InSight
  simp only [World.after_shared, World.after_history, hmem, hstage]
  rcases hi with hthere | ⟨del, hdel, hdeletes, hleft⟩
  · rcases isSome_after hallows hx hans hthere with hkept | ⟨hdeletes, hreleased⟩
    · exact .inl hkept
    · exact .inr ⟨_, .inl rfl, hdeletes, .inl (by rwa [Function.update_self])⟩
  · refine .inr ⟨del, .inr hdel, hdeletes, ?_⟩
    rcases hleft with hreleased | ⟨pub, hpub, hpid, hpublishes⟩
    · by_cases hdp : del.pid = p
      · rw [← hdp, hreleased] at hallows
        exact .inr ⟨_, .inl rfl, hdp.symm, publishes_of_released hallows⟩
      · exact .inl ((Function.update_of_ne hdp _ _).trans hreleased)
    · exact .inr ⟨pub, .inr hpub, hpid, hpublishes⟩

theorem attended_step (hconf : CallerConforms deps c) (hi : Attended c)
    (hal : Answered name c a ∧ Unmissed name c a) (hstep : (callers deps name).Steps c a d) :
    Attended d := by
  cases hstep with
  | start => exact ⟨hi.led, hi.inSight, hi.owed⟩
  | @drift e _ hx =>
    obtain ⟨s, hs, rfl⟩ := Option.map_eq_some_iff.mp hx
    refine ⟨fun hv => hi.led (value_of_drift hs hv), fun p hp => ?_, hi.owed⟩
    have hp : (stageOf c p).looking = true := hp
    rcases hi.inSight p hp with hthere | hdeleted
    · -- the key does not expire while `p` has still to look
      have hdone : ∃ e ∈ c.world.history, e.pid = p := by
        refine exists_mem_of_stage fun hidle => ?_
        rw [hidle] at hp
        cases hp
      obtain ⟨e, he, rfl⟩ := hdone
      exact .inl (hal.2 ⟨e, he, hp⟩ hthere s hs)
    · exact .inr hdeleted
  | @command p i P cmd k r s hp hk hx =>
    obtain ⟨⟨r', s'⟩, hs, heq⟩ := Option.map_eq_some_iff.mp hx
    cases heq
    obtain ⟨hans, hmissed⟩ := hal
    have hallows : (stageOf c p).Allows deps name cmd := hconf.allowed hp hk
    refine ⟨stageOf_after ▸ led_command hi.led hallows hs hans, fun q hq => ?_, fun q hq => ?_⟩
    · rw [stageOf_after] at hq
      by_cases hqp : q = p
      · subst hqp
        rw [Function.update_self] at hq
        rcases looking_after hallows hq with ⟨hlook, hclaims⟩ | hrefused
        · exact (hi.inSight q hlook).command hallows hs hans (.inr hclaims)
        · -- a claim is refused because the key is there
          obtain ⟨rfl, hr⟩ := Sigma.mk.inj_iff.mp hrefused
          cases hr
          exact .inl (isSome_of_refused hs)
      · rw [Function.update_of_ne hqp] at hq
        exact (hi.inSight q hq).command hallows hs hans (.inl (Ne.symm hqp))
    · rw [stageOf_after] at hq ⊢
      by_cases hqp : q = p
      · -- `p` has looked again and begins to wait
        subst hqp
        rw [Function.update_self] at hq
        obtain ⟨hstage, hlook⟩ := waiting_after hallows hq
        have hleader : ∃ q', (stageOf c q').owes = true ∧ q' ≠ q := by
          rcases hlook with hlook | hlook
          · obtain ⟨rfl, hr⟩ := Sigma.mk.inj_iff.mp hlook
            cases hr
            have hnone := value_of_redisGet hs
            rcases hi.inSight q (by rw [hstage]; rfl) with hthere | ⟨del, hdel, hdeletes, hleft⟩
            · rw [hnone] at hthere
              cases hthere
            · rcases hleft with hreleased | hpublished
              · refine ⟨del.pid, by rw [hreleased]; rfl, fun heq => ?_⟩
                rw [heq, hstage] at hreleased
                cases hreleased
              · exact absurd ⟨del, hdel, hdeletes, hpublished⟩ (hmissed hstage hnone)
          · obtain ⟨rfl, hr⟩ := Sigma.mk.inj_iff.mp hlook
            cases hr
            obtain ⟨q', hq'⟩ := hi.led (value_of_redisGet hs)
            refine ⟨q', by rw [hq']; rfl, fun heq => ?_⟩
            rw [heq, hstage] at hq'
            cases hq'
        obtain ⟨q', howes, hne⟩ := hleader
        exact .inr ⟨q', by rwa [Function.update_of_ne hne]⟩
      · rw [Function.update_of_ne hqp] at hq
        rcases hi.owed q hq with hsignal | ⟨q', howes⟩
        · exact .inl (hsignal.cons (Ne.symm hqp))
        · -- a leader that has yet to publish still has, or publishes now
          by_cases hq'p : q' = p
          · subst hq'p
            rcases owes_after hallows howes hans with howes' | hpublish
            · exact .inr ⟨q', by rwa [Function.update_self]⟩
            · exact .inl (signalled_of_publish hpublish (Ne.symm hqp))
          · exact .inr ⟨q', by rwa [Function.update_of_ne hq'p]⟩

end Steps

/-- Redis answers, and no leader has failed between a follower's claim and a second look of it that
finds nothing: then every follower that waits has been signalled, or somebody is about to. -/
theorem awaited_of_unmissed (deps : Deps) (name : String) (s : Store)
    (hs : s.value (dedupKey name) ≠ some .processing)
    (ls : List (Label Pid Input Drift (Work name))) (c : CallerConfig name)
    (hrun : (callers deps name).run (.init (.fresh s)) ls = some c)
    (hans : (callers deps name).Along (Answered name) (.init (.fresh s)) ls)
    (hunmissed : (callers deps name).Along (Unmissed name) (.init (.fresh s)) ls) (p : Pid) :
    Awaited c p := by
  have hconf := System.conforms_run (obeys_stages deps name) hrun
  have hi : Attended c := System.invariant_run (obeys_stages deps name)
    (fun _ _ _ hconf hi ha hstep => attended_step hconf hi ha hstep) (System.conforms_init _)
    (attended_init hs) hrun (hans.and hunmissed)
  intro hp
  rcases hi.owed p hp with hsignal | ⟨q, howes⟩
  · exact .inl hsignal
  · exact .inr ⟨q, howes, running_of_owes hconf howes⟩

/-! ### A leader and a follower -/

/-- A leader fails, and a follower begins to wait between its `DEL` and its signal. -/
def attended : List GreetingLabel :=
  ([.start ⟨tenantA, 0⟩ asking, .start ⟨tenantA, 1⟩ asking] : List GreetingLabel) ++
  calls ⟨tenantA, 0⟩ [.nothing] ++
  calls ⟨tenantA, 1⟩ [.nothing, .nothing, .nothing] ++
  calls ⟨tenantA, 0⟩ [.chat (.error (.error "provider exploded")), .nothing] ++
  calls ⟨tenantA, 1⟩ [.nothing]

theorem awaited_of_unmissed_attended :
    ∃ c, (callers plainDeps "greeting").run (.init (.fresh (.fresh (fun _ => none) fun _ => none)))
        attended = some c ∧ stageOf c ⟨tenantA, 1⟩ = .waiting ∧ Awaited c ⟨tenantA, 1⟩ := by
  have hres : ((callers plainDeps "greeting").run
      (.init (.fresh (.fresh (fun _ => none) fun _ => none))) attended).map
        (fun c => decide (stageOf c ⟨tenantA, 1⟩ = .waiting)) = some true := by
    decide
  obtain ⟨c, hrun, hc⟩ := Option.map_eq_some_iff.mp hres
  exact ⟨c, hrun, of_decide_eq_true hc, awaited_of_unmissed plainDeps "greeting" _
    (fun h => by cases h) _ c
    hrun (by decide) (by decide) _⟩

/-- The leader fails after the follower's first look, and has sent its signal before the follower
subscribes. -/
def stranded : List GreetingLabel :=
  ([.start ⟨tenantA, 0⟩ asking, .start ⟨tenantA, 1⟩ asking] : List GreetingLabel) ++
  calls ⟨tenantA, 0⟩ [.nothing] ++
  calls ⟨tenantA, 1⟩ [.nothing, .nothing] ++
  calls ⟨tenantA, 0⟩ [.chat (.error (.error "provider exploded")), .nothing, .nothing] ++
  calls ⟨tenantA, 1⟩ [.nothing, .nothing]

theorem awaited_fails :
    ∃ c, (callers plainDeps "greeting").run (.init (.fresh (.fresh (fun _ => none) fun _ => none)))
        stranded = some c ∧
      (callers plainDeps "greeting").Along (Answered "greeting")
        (.init (.fresh (.fresh (fun _ => none) fun _ => none))) stranded ∧
      ¬Awaited c ⟨tenantA, 1⟩ := by
  have hres : ((callers plainDeps "greeting").run
      (.init (.fresh (.fresh (fun _ => none) fun _ => none))) stranded).map
        (fun c => decide (stageOf c ⟨tenantA, 1⟩ = .waiting ∧
          ¬Signalled "greeting" c.world.history ⟨tenantA, 1⟩ ∧
          ∀ e ∈ c.world.history, (stageOf c e.pid).owes = false)) = some true := by
    decide
  obtain ⟨c, hrun, hc⟩ := Option.map_eq_some_iff.mp hres
  obtain ⟨hwait, hsilent, hdone⟩ := of_decide_eq_true hc
  refine ⟨c, hrun, by decide, fun h => ?_⟩
  rcases h hwait with hsignal | ⟨q, howes, -⟩
  · exact hsilent hsignal
  · have hmem : ∃ e ∈ c.world.history, e.pid = q := by
      refine exists_mem_of_stage fun hidle => ?_
      rw [hidle] at howes
      cases howes
    obtain ⟨e, he, rfl⟩ := hmem
    exact nomatch howes.symm.trans (hdone e he)

end CloudMesh.Gateway
