import CloudMesh.Gateway.Lib

/-!
# The lock under budgets

`apps/gateway/src/lib/billingLock.ts` with any number of callers. A key that expires while `fn`
runs lets others in, so the lock is not mutual exclusion of `fn`. It keeps to each claim: nobody
else gets the key before it is released or expires, and nobody deletes the claim of another.

## Main definitions

- `locks` — the system of the callers of `withDistributedLock`
- `SafeLock` — what holds in every configuration of a run
-/

namespace CloudMesh.Gateway.Lock

open Concurrent

/-! ## Callers -/

inductive Cmd
  | setNx (key token : String) (ttlMs : ℕ+)
  | evalRelease (key token : String)
  | sleep (ms : ℕ)
  | fn

/-- `fn` returns an `α` or throws an `ε`. -/
abbrev sig (ε α : Type) : Signature where
  Cmd := Cmd
  Ans
    | .setNx .. => Bool
    | .evalRelease .. | .sleep _ => Unit
    | .fn => Except ε α

/-- `LockAcquisitionError`, apart from what `fn` throws. -/
inductive LockThrown (ε : Type)
  | lockAcquisition (key : String)
  | fn (err : ε)

/-- What is stored under a key of the lock. -/
structure Claim where
  token : String
  expireAt : ℕ

/-- Redis, with its own clock. A key that has expired is gone. -/
structure Store where
  clock : ℕ
  keys : String → Option Claim

def Store.empty : Store := ⟨0, fun _ => none⟩

def Store.set (s : Store) (key : String) (claim : Option Claim) : Store :=
  { s with keys := Function.update s.keys key claim }

@[simp] theorem Store.set_keys_self (s : Store) (key : String) (claim : Option Claim) :
    (s.set key claim).keys key = claim := Function.update_self ..

theorem Store.set_keys_of_ne (s : Store) {key other : String} (claim : Option Claim)
    (h : other ≠ key) : (s.set key claim).keys other = s.keys other :=
  Function.update_of_ne h ..

@[simp] theorem Store.set_clock (s : Store) (key : String) (claim : Option Claim) :
    (s.set key claim).clock = s.clock := rfl

/-- Time passes, and the claims that it has come to the end of expire. -/
def Store.tick (s : Store) (d : ℕ) : Store :=
  ⟨s.clock + d, fun key => (s.keys key).filter fun claim => s.clock + d < claim.expireAt⟩

section System

variable {ε α : Type}

/-- `i` is what `fn` comes to; the other commands ignore it. -/
def exec (c : Cmd) (i : Except ε α) (s : Store) : Option ((sig ε α).Ans c × Store) :=
  match c with
  | .setNx key token ttlMs =>
    match s.keys key with
    | some _ => some (false, s)
    | none => some (true, s.set key (some ⟨token, s.clock + ttlMs⟩))
  | .evalRelease key token =>
    match s.keys key with
    | some claim => some ((), if claim.token = token then s.set key none else s)
    | none => some ((), s)
  | .sleep _ => some ((), s)
  | .fn => some (i, s)

def redis : LockRedis (Handler (sig ε α) (LockThrown ε)) where
  setNx key token ttlMs := @Handler.call (sig ε α) _ (.setNx key token ttlMs)
  evalRelease key token := @Handler.call (sig ε α) _ (.evalRelease key token)
  sleep ms := @Handler.call (sig ε α) _ (.sleep ms)

def fn : Handler (sig ε α) (LockThrown ε) α :=
  ExceptT.mk (.issue Cmd.fn fun (r : Except ε α) => .done (r.mapError .fn))

/-- A caller's arguments. -/
structure Call where
  name : String
  opts : DistributedLockOptions

def code (token : ℕ → String) (p : ℕ) (call : Call) :
    Program (sig ε α) (Except (LockThrown ε) α) :=
  (withDistributedLock redis call.name (token p) fn call.opts .lockAcquisition).run

/-- Each process is one call of `withDistributedLock`, with a token of its own. -/
def locks (token : ℕ → String) :
    System (sig ε α) ℕ Store (Except ε α) ℕ Call (Except (LockThrown ε) α) where
  exec _ := exec
  drift d s := some (s.tick d)
  code := code token

theorem lockAttempt_run (key token : String) (ttlMs : ℕ+)
    (otherwise : Handler (sig ε α) (LockThrown ε) α) :
    (lockAttempt redis key token ttlMs fn otherwise).run =
      .issue (.setNx key token ttlMs) fun (acquired : Bool) =>
        if acquired then
          .issue .fn fun (result : Except ε α) =>
            .issue (.evalRelease key token) fun _ => .done (result.mapError .fn)
        else otherwise.run := by
  refine congrArg (@Program.issue (sig ε α) _ (.setNx key token ttlMs))
    (funext fun (acquired : Bool) => ?_)
  cases acquired with
  | false => rfl
  | true =>
    refine congrArg (@Program.issue (sig ε α) _ .fn) (funext fun (result : Except ε α) => ?_)
    cases result <;> rfl

/-! ### What a command does to a key -/

/-- A command with its answer, and what it leaves under `key`. -/
inductive Touches (key : String) (s : Store) : (c : Cmd) → (sig ε α).Ans c → Option Claim → Prop
  | claim {token ttlMs} (h : s.keys key = none) :
      Touches key s (.setNx key token ttlMs) true (some ⟨token, s.clock + ttlMs⟩)
  | release {token claim} (h : s.keys key = some claim) (htoken : claim.token = token) :
      Touches key s (.evalRelease key token) () none
  | keep {c r} : Touches key s c r (s.keys key)

variable {c : Cmd} {i : Except ε α} {s s' : Store} {r : (sig ε α).Ans c}
  {key token : String} {ttlMs : ℕ+}

theorem exec_clock (h : exec c i s = some (r, s')) : s'.clock = s.clock := by
  cases c with
  | setNx key token ttlMs =>
    simp only [exec] at h
    split at h <;> cases h <;> rfl
  | evalRelease key token =>
    simp only [exec] at h
    split at h
    · cases h
      split <;> rfl
    · cases h
      rfl
  | sleep | fn => cases h; rfl

theorem touches_of_exec (key : String) (h : exec c i s = some (r, s')) :
    Touches key s c r (s'.keys key) := by
  cases c with
  | setNx key' token ttlMs =>
    simp only [exec] at h
    cases hkey : s.keys key' with
    | some claim => simp only [hkey] at h; cases h; exact .keep
    | none =>
      simp only [hkey] at h
      cases h
      by_cases hk : key = key'
      · subst hk
        rw [Store.set_keys_self]
        exact .claim hkey
      · rw [Store.set_keys_of_ne _ _ hk]
        exact .keep
  | evalRelease key' token =>
    simp only [exec] at h
    cases hkey : s.keys key' with
    | none => simp only [hkey] at h; cases h; exact .keep
    | some claim =>
      simp only [hkey] at h
      cases h
      by_cases htoken : claim.token = token
      · by_cases hk : key = key'
        · subst hk
          rw [if_pos htoken, Store.set_keys_self]
          exact .release hkey htoken
        · rw [if_pos htoken, Store.set_keys_of_ne _ _ hk]
          exact .keep
      · rw [if_neg htoken]
        exact .keep
  | sleep | fn => cases h; exact .keep

/-- A `SET NX` succeeds only on a free key. -/
theorem refused_of_some {acquired : Bool} {claim : Claim} (hkey : s.keys key = some claim)
    (h : exec (.setNx key token ttlMs) i s = some (acquired, s')) : acquired = false := by
  simp only [exec, hkey] at h
  cases h
  rfl

theorem claimed_of_exec (h : exec (.setNx key token ttlMs) i s = some (true, s')) :
    s'.keys key = some ⟨token, s.clock + ttlMs⟩ := by
  cases hkey : s.keys key with
  | some claim => cases refused_of_some hkey h
  | none =>
    simp only [exec, hkey] at h
    cases h
    exact Store.set_keys_self ..

end System

/-! ## What a caller does -/

section Callers

variable {ε α : Type}

@[simp] def isRun : Exchange (sig ε α) → Bool
  | ⟨.fn, _⟩ => true
  | _ => false

@[simp] def isClaim : Exchange (sig ε α) → Bool
  | ⟨.setNx .., acquired⟩ => acquired
  | _ => false

@[simp] def isRefusal : Exchange (sig ε α) → Bool
  | ⟨.setNx .., acquired⟩ => !acquired
  | _ => false

/-- How often `fn` was run. -/
def runs (t : Transcript (sig ε α)) : ℕ := t.countP isRun

/-- How many of the `SET`s succeeded. -/
def claims (t : Transcript (sig ε α)) : ℕ := t.countP isClaim

/-- How many of the `SET`s failed. -/
def refusals (t : Transcript (sig ε α)) : ℕ := t.countP isRefusal

@[simp] theorem runs_cons (e : Exchange (sig ε α)) (t : Transcript (sig ε α)) :
    runs (e :: t) = runs t + if isRun e then 1 else 0 := List.countP_cons ..

@[simp] theorem claims_cons (e : Exchange (sig ε α)) (t : Transcript (sig ε α)) :
    claims (e :: t) = claims t + if isClaim e then 1 else 0 := List.countP_cons ..

@[simp] theorem refusals_cons (e : Exchange (sig ε α)) (t : Transcript (sig ε α)) :
    refusals (e :: t) = refusals t + if isRefusal e then 1 else 0 := List.countP_cons ..

/-- `LockAcquisitionError`. -/
def NotAcquired (r : Except (LockThrown ε) α) : Prop :=
  ∃ key, r = .error (.lockAcquisition key)

/-- What a caller has done when it issues a command. -/
def Rule (token : ℕ → String) (p : ℕ) (call : Call) (t : Transcript (sig ε α)) : Cmd → Prop
  | .setNx key tok ttlMs => key = lockKeyFor call.name ∧ tok = token p ∧
      ttlMs = call.opts.ttlMs ∧ claims t = 0 ∧ runs t = 0
  | .sleep _ => claims t = 0 ∧ runs t = 0
  | .fn => claims t = 1 ∧ runs t = 0
  | .evalRelease key tok => key = lockKeyFor call.name ∧ tok = token p ∧
      claims t = 1 ∧ runs t = 1

/-- A caller has given up after all its attempts, or `fn` was run and decided the result. -/
def Ended (_ : ℕ) (call : Call) (r : Except (LockThrown ε) α) (t : Transcript (sig ε α)) : Prop :=
  NotAcquired r ∧ refusals t = call.opts.retries + 1 ∧ claims t = 0 ∧ runs t = 0 ∨
    ¬NotAcquired r ∧ refusals t ≤ call.opts.retries ∧ claims t = 1 ∧ runs t = 1

theorem not_notAcquired_mapError (result : Except ε α) :
    ¬NotAcquired (result.mapError LockThrown.fn) := by
  rintro ⟨key, h⟩
  cases result <;> cases h

theorem lockAttempt_follows {token : ℕ → String} {p : ℕ} {call : Call}
    {otherwise : Handler (sig ε α) (LockThrown ε) α} {t : Transcript (sig ε α)}
    (hrefused : refusals t ≤ call.opts.retries) (hclaims : claims t = 0) (hruns : runs t = 0)
    (hotherwise : otherwise.run.Follows (Rule token p call) (Ended p call)
      (⟨.setNx (lockKeyFor call.name) (token p) call.opts.ttlMs, false⟩ :: t)) :
    (lockAttempt redis (lockKeyFor call.name) (token p) call.opts.ttlMs fn otherwise).run.Follows
      (Rule token p call) (Ended p call) t := by
  rw [lockAttempt_run]
  refine ⟨⟨rfl, rfl, rfl, hclaims, hruns⟩, fun (acquired : Bool) => ?_⟩
  cases acquired with
  | false => exact hotherwise
  | true =>
    refine ⟨⟨by simp [hclaims], by simp [hruns]⟩, fun (result : Except ε α) => ?_⟩
    refine ⟨⟨rfl, rfl, by simp [hclaims], by simp [hruns]⟩, fun _ => .inr ⟨?_, ?_, ?_, ?_⟩⟩
    · exact not_notAcquired_mapError result
    · simpa using hrefused
    · simp [hclaims]
    · simp [hruns]

theorem lockFrom_follows (token : ℕ → String) (p : ℕ) (call : Call) (retries : ℕ)
    {t : Transcript (sig ε α)} (hrefused : refusals t + retries = call.opts.retries)
    (hclaims : claims t = 0) (hruns : runs t = 0) :
    (lockFrom redis (lockKeyFor call.name) (token p) call.opts fn
      (.lockAcquisition (lockKeyFor call.name)) retries).run.Follows
        (Rule token p call) (Ended p call) t := by
  induction retries generalizing t with
  | zero =>
    refine lockAttempt_follows (by omega) hclaims hruns (.inl ⟨⟨_, rfl⟩, ?_, ?_, ?_⟩)
    · simpa using hrefused
    · simpa using hclaims
    · simpa using hruns
  | succ retries ih =>
    refine lockAttempt_follows (by omega) hclaims hruns
      ⟨⟨by simpa using hclaims, by simpa using hruns⟩, fun _ => ih ?_ ?_ ?_⟩
    · simp only [refusals_cons, isRefusal, Bool.not_false, if_true]
      simp
      omega
    · simpa using hclaims
    · simpa using hruns

theorem obeys (token : ℕ → String) :
    (locks (ε := ε) (α := α) token).Obeys (Rule token) Ended := by
  intro p call
  exact lockFrom_follows token p call call.opts.retries (by simp [refusals]) rfl rfl

/-! ## The lock is safe -/

abbrev LockConfig (ε α : Type) := Config (sig ε α) ℕ Store Call (Except (LockThrown ε) α)

variable {token : ℕ → String} {c d : LockConfig ε α} {a : Action (sig ε α) ℕ ℕ Call}
  {ls : List (Label ℕ (Except ε α) ℕ Call)}

/-- A command takes away a claim only if it is the release of the caller who holds it. -/
def ReleasesOwn (token : ℕ → String) (c : LockConfig ε α) : Prop :=
  ∀ e d key claim, (locks token).Steps c (.command e) d →
    c.world.shared.keys key = some claim → d.world.shared.keys key = none →
      claim.token = token e.pid ∧ e.cmd = .evalRelease key (token e.pid)

/-- From a `SET` that succeeds until its release or its expiry no `SET` on the key succeeds. -/
def Excludes (token : ℕ → String) (c : LockConfig ε α) : Prop :=
  ∀ p key tok ttlMs d, (locks token).Steps c (.command ⟨p, .setNx key tok ttlMs, true⟩) d →
    ∀ ls e, (locks token).run d ls = some e → ⟨p, .evalRelease key tok, ()⟩ ∉ e.world.history →
      e.world.shared.clock < c.world.shared.clock + ttlMs →
        ∀ q tok' ttlMs' acquired f, (locks token).Steps e
          (.command ⟨q, .setNx key tok' ttlMs', acquired⟩) f → acquired = false

/-- A call runs `fn` at most once, and exactly if one of its `SET`s has succeeded: after that `fn`
is the next thing it does. -/
def RunsIffClaimed (c : LockConfig ε α) : Prop :=
  ∀ p P, c.procs p = some P → runs (transcript p c.world.history) ≤ 1 ∧
    (0 < runs (transcript p c.world.history) → 0 < claims (transcript p c.world.history)) ∧
    (0 < claims (transcript p c.world.history) →
      runs (transcript p c.world.history) = 1 ∨ ∃ k, P.prog = .issue .fn k)

/-- A call throws `LockAcquisitionError` iff all its `SET`s have failed, without running `fn`. -/
def ThrowsIffRefused (c : LockConfig ε α) : Prop :=
  ∀ p P r, c.procs p = some P → P.prog = .done r →
    (NotAcquired r ↔ refusals (transcript p c.world.history) = P.op.opts.retries + 1) ∧
    (NotAcquired r → claims (transcript p c.world.history) = 0 ∧
      runs (transcript p c.world.history) = 0)

structure SafeLock (token : ℕ → String) (c : LockConfig ε α) : Prop where
  release : ReleasesOwn token c
  exclude : Excludes token c
  run : RunsIffClaimed c
  throw : ThrowsIffRefused c

theorem releasesOwn (h : System.Conforms (Rule token) Ended c) : ReleasesOwn token c := by
  intro e d key claim hstep hheld hgone
  cases hstep with
  | @command p i P cmd k r s hp hk hx =>
    have hrule := h.allowed hp hk
    have htouch := touches_of_exec key hx
    rw [World.after_shared] at hgone
    generalize hkey : s.keys key = left at htouch
    cases htouch with
    | claim hfree => cases hgone.symm.trans hkey
    | @release tok holder hholder htok =>
      obtain ⟨-, rfl, -⟩ := hrule
      obtain rfl := Option.some.inj (hheld.symm.trans hholder)
      exact ⟨htok, rfl⟩
    | keep => cases hheld.symm.trans (hkey.symm.trans hgone)

/-- The claim of `p` is under the key as long as it has not expired or been released. -/
def Kept (p : ℕ) (key tok : String) (expireAt : ℕ) (c : LockConfig ε α) : Prop :=
  ⟨p, .evalRelease key tok, ()⟩ ∈ c.world.history ∨ expireAt ≤ c.world.shared.clock ∨
    c.world.shared.keys key = some ⟨tok, expireAt⟩

theorem clock_le_of_steps (h : (locks token).Steps c a d) :
    c.world.shared.clock ≤ d.world.shared.clock := by
  cases h with
  | start => exact le_rfl
  | command hp hk hx => exact (exec_clock hx).ge
  | drift hx => cases hx; exact Nat.le_add_right ..

theorem kept_step {p : ℕ} {key : String} {expireAt : ℕ} (htoken : Function.Injective token)
    (h : System.Conforms (Rule token) Ended c) (hi : Kept p key (token p) expireAt c)
    (hstep : (locks token).Steps c a d) : Kept p key (token p) expireAt d := by
  rcases hi with hreleased | hexpired | hheld
  · exact .inl (hstep.history_suffix.mem hreleased)
  · exact .inr (.inl (hexpired.trans (clock_le_of_steps hstep)))
  · cases hstep with
    | start => exact .inr (.inr hheld)
    | @drift n s hx =>
      cases hx
      by_cases hlive : c.world.shared.clock + n < expireAt
      · right; right
        simp [Store.tick, hheld, hlive]
      · exact .inr (.inl (not_lt.mp hlive))
    | @command q i P cmd k r s hp hk hx =>
      have hrule := h.allowed hp hk
      have htouch := touches_of_exec key hx
      generalize hkey : s.keys key = left at htouch
      cases htouch with
      | claim hfree => cases hheld.symm.trans hfree
      | @release tok holder hholder htok =>
        obtain ⟨-, rfl, -⟩ := hrule
        obtain rfl := Option.some.inj (hheld.symm.trans hholder)
        obtain rfl := htoken htok
        exact .inl List.mem_cons_self
      | keep => exact .inr (.inr (hkey.trans hheld))

theorem excludes (htoken : Function.Injective token)
    (h : System.Conforms (Rule token) Ended c) : Excludes token c := by
  intro p key tok ttlMs d hset ls e hrun hheld hlive q tok' ttlMs' acquired f hagain
  have hconf := h.step (obeys token) hset
  have hkept : Kept p key tok (c.world.shared.clock + ttlMs) e := by
    cases hset with
    | @command _ i P _ k _ s hp hk hx =>
      obtain ⟨-, rfl, -⟩ := h.allowed hp hk
      exact System.invariant_run (obeys token)
        (fun _ _ _ hc hi (_ : True) hst => kept_step htoken hc hi hst) hconf
        (.inr (.inr (claimed_of_exec (i := i) hx))) hrun
        (System.along_of_forall (fun _ _ => trivial) _ _)
  rcases hkept with hreleased | hexpired | hkey
  · exact absurd hreleased hheld
  · exact absurd hlive (not_lt.mpr hexpired)
  · cases hagain with
    | @command _ i _ _ _ _ _ hp hk hx => exact refused_of_some (i := i) hkey hx

theorem runs_le (h : System.Conforms (Rule token) Ended c) (p : ℕ) :
    runs (transcript p c.world.history) ≤ 1 ∧
      (0 < runs (transcript p c.world.history) → 0 < claims (transcript p c.world.history)) := by
  refine h.transcript_induction (I := fun t => runs t ≤ 1 ∧ (0 < runs t → 0 < claims t))
    ⟨zero_le_one, fun h => h⟩ ?_ p
  intro q call t cmd r hrule hi
  cases cmd with
  | setNx key tok ttlMs =>
    obtain ⟨-, -, -, -, hruns⟩ := hrule
    simp [hruns]
  | fn =>
    obtain ⟨hclaims, hruns⟩ := hrule
    simp [hclaims, hruns]
  | evalRelease | sleep => simpa using hi

theorem runsIffClaimed (h : System.Conforms (Rule token) Ended c) : RunsIffClaimed c := by
  intro p P hp
  obtain ⟨hle, hclaimed⟩ := runs_le h p
  refine ⟨hle, hclaimed, fun hclaims => ?_⟩
  have hfollows := h.follows p P hp
  cases hprog : P.prog with
  | done r =>
    rw [hprog] at hfollows
    rcases hfollows with ⟨-, -, hnone, -⟩ | ⟨-, -, -, hruns⟩
    · omega
    · exact .inl hruns
  | issue cmd k =>
    rw [hprog] at hfollows
    have hrule := hfollows.1
    cases cmd with
    | setNx key tok ttlMs => exact absurd hrule.2.2.2.1 hclaims.ne'
    | sleep ms => exact absurd hrule.1 hclaims.ne'
    | evalRelease key tok => exact .inl hrule.2.2.2
    | fn => exact .inr ⟨k, rfl⟩

theorem throwsIffRefused (h : System.Conforms (Rule token) Ended c) : ThrowsIffRefused c := by
  intro p P r hp hr
  rcases h.result hp hr with ⟨hthrown, hrefused, hclaims, hruns⟩ | ⟨hreturned, hrefused, -, -⟩
  · exact ⟨⟨fun _ => hrefused, fun _ => hthrown⟩, fun _ => ⟨hclaims, hruns⟩⟩
  · exact ⟨⟨fun h => absurd h hreturned, fun h => by omega⟩, fun h => absurd h hreturned⟩

/-- In every run of any number of callers whose tokens differ, the lock is safe. -/
theorem safeLock_run (htoken : Function.Injective token)
    (hrun : (locks token).run (.init .empty) ls = some c) : SafeLock token c := by
  have hconf := System.conforms_run (obeys token) hrun
  exact ⟨releasesOwn hconf, excludes htoken hconf, runsIffClaimed hconf, throwsIffRefused hconf⟩

/-- Tokens of growing length. -/
def unaryToken (p : ℕ) : String := String.ofList (List.replicate p 'x')

theorem unaryToken_injective : Function.Injective unaryToken := by
  intro p q h
  simpa using congrArg List.length (String.ofList_injective h)

/-- The claim of call 0 expires while its `fn` runs, and call 1 runs its own before 0 releases. -/
def overtakenLabels : List (Label ℕ (Except Empty Unit) ℕ Call) :=
  [.start 0 ⟨"org", ⟨100, 0, 50⟩⟩, .start 1 ⟨"org", ⟨100, 1, 50⟩⟩, .step 0 (.ok ()),
    .step 1 (.ok ()), .step 1 (.ok ()), .drift 100, .step 1 (.ok ()), .step 1 (.ok ()),
    .step 0 (.ok ()), .step 0 (.ok ())]

theorem safeLock_run_overtaken : ∃ c, (locks unaryToken).run (.init .empty) overtakenLabels =
    some c ∧ (c.world.shared.keys (lockKeyFor "org")).map Claim.token = some (unaryToken 1) ∧
      SafeLock unaryToken c := by
  obtain ⟨c, hrun, hkey⟩ : ∃ c, (locks unaryToken).run (.init .empty) overtakenLabels = some c ∧
      (c.world.shared.keys (lockKeyFor "org")).map Claim.token = some (unaryToken 1) :=
    ⟨_, rfl, by decide⟩
  exact ⟨c, hrun, hkey, safeLock_run unaryToken_injective hrun⟩

end Callers

end CloudMesh.Gateway.Lock
