import CloudMesh.Auth.Jwt
import CloudMesh.Concurrent.Transcript

/-!
# Rotation of refresh tokens

`refresh` and `logout` of `apps/api/src/modules/auth/service.ts`, any number of them against one
Redis and one user table. A refresh checks with a `GET` that its token's key exists and deletes the
key with a separate `DEL` whose answer it does not look at, so every refresh that reads the key
before the first delete goes on to issue a pair. A token is used once in the runs in which no delete
of its key falls between another refresh's check and that refresh's own delete.

## Main definitions

- `service` — the system
- `SingleUse` — at most one pair is issued from a token, and none after a logout
- `RotatedAlone` — the condition on steps
-/

namespace CloudMesh.Auth.Refresh

open Concurrent

structure User where
  id : String
  orgId : String
  role : String
  deriving DecidableEq, Repr

structure TokenPair where
  accessToken : String
  refreshToken : String
  deriving DecidableEq, Repr

def refreshTtlSeconds : ℕ := 60 * 60 * 24 * 7

def refreshKey (jti : String) : String := "refresh:" ++ jti

inductive Cmd
  | dateNow
  | redisGet (key : String)
  | redisSet (key value : String) (ttlSeconds : ℕ)
  | redisDel (key : String)
  | findUser (id : String)
  | randomUUID
  deriving DecidableEq, Repr

abbrev sig : Signature where
  Cmd := Cmd
  Ans
    | .dateNow => ℤ
    | .redisGet _ => Option String
    | .redisSet .. => Unit
    | .redisDel _ => ℕ
    | .findUser _ => Option User
    | .randomUUID => String

instance : (c : sig.Cmd) → DecidableEq (sig.Ans c)
  | .dateNow => inferInstanceAs (DecidableEq ℤ)
  | .redisGet _ => inferInstanceAs (DecidableEq (Option String))
  | .redisSet .. => inferInstanceAs (DecidableEq Unit)
  | .redisDel _ => inferInstanceAs (DecidableEq ℕ)
  | .findUser _ => inferInstanceAs (DecidableEq (Option User))
  | .randomUUID => inferInstanceAs (DecidableEq String)

/-- A value in Redis and the clock at which it expires. -/
structure Entry where
  value : String
  expireAt : ℤ

/-- Redis with its clock, the user table, and every id that has been drawn. -/
structure Store where
  clock : ℤ
  redis : String → Option Entry
  users : String → Option User
  uuids : List String

def Store.set (s : Store) (key : String) (entry : Option Entry) : Store :=
  { s with redis := Function.update s.redis key entry }

@[simp] theorem Store.set_redis_self (s : Store) (key : String) (entry : Option Entry) :
    (s.set key entry).redis key = entry := Function.update_self ..

theorem Store.set_redis_of_ne (s : Store) {key other : String} (entry : Option Entry)
    (h : other ≠ key) : (s.set key entry).redis other = s.redis other :=
  Function.update_of_ne h ..

abbrev Pid := ℕ

/-- `i` is the id that is drawn, which is a new one; the other commands ignore it. -/
def exec (_ : Pid) (c : sig.Cmd) (i : String) (s : Store) : Option (sig.Ans c × Store) :=
  match c with
  | .dateNow => some (s.clock, s)
  | .redisGet key => some ((s.redis key).map Entry.value, s)
  | .redisSet key value ttlSeconds =>
    some ((), s.set key (some ⟨value, s.clock + ttlSeconds * 1000⟩))
  | .redisDel key => some (if (s.redis key).isSome then 1 else 0, s.set key none)
  | .findUser id => some (s.users id, s)
  | .randomUUID => if i ∈ s.uuids then none else some (i, { s with uuids := i :: s.uuids })

/-- Time passes, or somebody changes the user table. -/
inductive Drift
  | tick (d : ℕ)
  | setUser (id : String) (user : Option User)

/-- Expired keys are gone. -/
def drift : Drift → Store → Option Store
  | .tick d, s => some { s with
      clock := s.clock + d
      redis := fun key => (s.redis key).filter fun entry => s.clock + d < entry.expireAt }
  | .setUser id user, s => some { s with users := Function.update s.users id user }

inductive Op
  | refresh (token : String)
  | logout (token : String)
  deriving DecidableEq, Repr

/-- `payload.jti`; an access token has none, and the key's template makes `"undefined"` of it. -/
def jtiOf : Payload → String
  | .access _ => "undefined"
  | .refresh payload => payload.jti

def subOf : Payload → String
  | .access payload => payload.sub
  | .refresh payload => payload.sub

/-- Issue one command; no command fails here. -/
def command (c : sig.Cmd) : Handler sig Thrown (sig.Ans c) := Handler.call c

section Code

variable (mac : IdealMac) (env : JwtEnv)

def issueTokenPair (userId orgId role : String) : Handler sig Thrown TokenPair := do
  let jti ← command .randomUUID
  let now ← command .dateNow
  let accessToken := signAccessToken mac env now ⟨userId, orgId, role⟩
  let now ← command .dateNow
  let refreshToken := signRefreshToken mac env now ⟨userId, orgId, jti⟩
  command (.redisSet (refreshKey jti) userId refreshTtlSeconds)
  pure ⟨accessToken, refreshToken⟩

def refresh (refreshToken : String) : Handler sig Thrown TokenPair := do
  let now ← command .dateNow
  match verifyRefreshToken mac env now refreshToken with
  | .error _ => throw (.app (unauthorizedError "Invalid or expired refresh token"))
  | .ok payload =>
    let stored ← command (.redisGet (refreshKey (jtiOf payload)))
    -- an empty stored value counts as missing
    if stored ≠ some (subOf payload) ∨ stored = some "" then
      throw (.app (unauthorizedError "Refresh token has been revoked"))
    else
      let _ ← command (.redisDel (refreshKey (jtiOf payload)))
      let user ← command (.findUser (subOf payload))
      match user with
      | none => throw (.app (unauthorizedError "Account no longer exists"))
      | some user => issueTokenPair mac env user.id user.orgId user.role

def logout (refreshToken : String) : Handler sig Thrown Unit := do
  let now ← command .dateNow
  match verifyRefreshToken mac env now refreshToken with
  | .error _ => pure ()
  | .ok payload =>
    let _ ← command (.redisDel (refreshKey (jtiOf payload)))
    pure ()

/-- A logout returns no pair. -/
def code (_ : Pid) : Op → Program sig (Except Thrown (Option TokenPair))
  | .refresh token => (do
      let pair ← refresh mac env token
      pure (some pair) : Handler sig Thrown (Option TokenPair)).run
  | .logout token => (do
      logout mac env token
      pure none : Handler sig Thrown (Option TokenPair)).run

def service : System sig Pid Store String Drift Op (Except Thrown (Option TokenPair)) where
  exec := exec
  drift := drift
  code := code mac env

end Code

/-! ## What the processes do -/

abbrev AuthWorld := World sig Pid Store

abbrev AuthEvent := Event sig Pid

abbrev AuthConfig := Config sig Pid Store Op (Except Thrown (Option TokenPair))

abbrev AuthLabel := Label Pid String Drift Op

section Rules

variable (mac : IdealMac) (env : JwtEnv)

/-- The token was verified at some time, with this payload. -/
def Verified (token : String) (payload : Payload) : Prop :=
  ∃ now, verifyRefreshToken mac env now token = .ok payload

/-- The process has verified its token and found the token's key. -/
def Accepted (token : String) (payload : Payload) (t : Transcript sig) : Prop :=
  Verified mac env token payload ∧ subOf payload ≠ "" ∧
    ⟨.redisGet (refreshKey (jtiOf payload)), some (subOf payload)⟩ ∈ t

/-- What a process has done when it issues a command. -/
def Rule (_ : Pid) : Op → Transcript sig → Cmd → Prop
  | .refresh token, t, .redisDel key => ∃ payload, Accepted mac env token payload t ∧
      key = refreshKey (jtiOf payload) ∧ ∀ r, ⟨.redisDel key, r⟩ ∉ t
  | .refresh token, t, .redisSet key _ _ =>
    (∃ payload, Accepted mac env token payload t ∧
      ∃ r, ⟨.redisDel (refreshKey (jtiOf payload)), r⟩ ∈ t) ∧
    (∃ jti, ⟨.randomUUID, jti⟩ ∈ t ∧ key = refreshKey jti) ∧
      ∀ key value ttlSeconds, ⟨.redisSet key value ttlSeconds, ()⟩ ∉ t
  | .logout _, t, .redisDel _ => ∀ key r, ⟨.redisGet key, r⟩ ∉ t
  | .logout _, _, .redisSet .. => False
  | _, _, _ => True

/-- A pair is returned only after its key has been stored. -/
def Stored (_ : Pid) (_ : Op) (r : Except Thrown (Option TokenPair)) (t : Transcript sig) : Prop :=
  ∀ pair, r = .ok (some pair) → ∃ key value ttlSeconds, ⟨.redisSet key value ttlSeconds, ()⟩ ∈ t

theorem obeys : (service mac env).Obeys (Rule mac env) Stored := by
  intro p op
  cases op with
  | refresh token =>
    simp only [service, code, refresh, bind_assoc]
    refine Handler.follows_call_bind trivial fun now => ?_
    cases hv : verifyRefreshToken mac env now token with
    | error e => exact nofun
    | ok payload =>
      simp only [bind_assoc]
      refine Handler.follows_call_bind trivial fun stored => ?_
      split_ifs with hs
      · exact nofun
      · obtain ⟨hs, hne⟩ := not_or.mp hs
        obtain rfl := not_not.mp hs
        have hacc : ∀ t, Accepted mac env token payload
            (t ++ [⟨.redisGet (refreshKey (jtiOf payload)), some (subOf payload)⟩,
              ⟨.dateNow, now⟩]) :=
          fun t => ⟨⟨now, hv⟩, fun h => hne (congrArg some h), by simp⟩
        simp only [bind_assoc]
        refine Handler.follows_call_bind ⟨payload, hacc [], rfl, by simp⟩ fun count => ?_
        refine Handler.follows_call_bind trivial fun user => ?_
        cases user with
        | none => exact nofun
        | some user =>
          simp only [issueTokenPair, bind_assoc]
          refine Handler.follows_call_bind trivial fun jti => ?_
          refine Handler.follows_call_bind trivial fun now' => ?_
          refine Handler.follows_call_bind trivial fun now'' => ?_
          refine Handler.follows_call_bind
            ⟨⟨payload, hacc [_, _, _, _, _], count, by simp⟩, ⟨jti, by simp, rfl⟩, by simp⟩
            fun _ => ?_
          exact fun _ _ => ⟨_, _, _, List.mem_cons_self⟩
  | logout token =>
    simp only [service, code, logout, bind_assoc]
    refine Handler.follows_call_bind trivial fun now => ?_
    cases hv : verifyRefreshToken mac env now token with
    | error e => exact nofun
    | ok payload =>
      simp only [bind_assoc]
      refine Handler.follows_call_bind ?_ fun count => ?_
      · show ∀ key r, _ ∉ _
        simp
      · exact nofun

end Rules

/-! ## Single use -/

/-- `p` has found the key of `jti` with the value `sub`. -/
def Found (sub jti : String) (p : Pid) (h : List AuthEvent) : Prop :=
  sub ≠ "" ∧ ⟨p, .redisGet (refreshKey jti), some sub⟩ ∈ h

/-- `p` has deleted the key of `jti`. -/
def Deleted (jti : String) (p : Pid) (h : List AuthEvent) : Prop :=
  ∃ e ∈ h, e.pid = p ∧ e.cmd = .redisDel (refreshKey jti)

/-- The key of `jti` has been deleted. -/
def Gone (jti : String) (h : List AuthEvent) : Prop :=
  ∃ e ∈ h, e.cmd = .redisDel (refreshKey jti)

/-- The event stores the key of a new pair. -/
def Issues (e : AuthEvent) : Prop :=
  match e.cmd with
  | .redisSet .. => True
  | _ => False

/-- `p` has issued a pair. -/
def Issued (p : Pid) (h : List AuthEvent) : Prop :=
  ∃ e ∈ h, e.pid = p ∧ Issues e

def Refreshes (token : String) (c : AuthConfig) (p : Pid) : Prop :=
  ∃ P, c.procs p = some P ∧ P.op = .refresh token

def LogsOut (token : String) (c : AuthConfig) (p : Pid) : Prop :=
  ∃ P, c.procs p = some P ∧ P.op = .logout token

/-- All refreshes of a token together issue at most one pair and return no other, and a refresh
whose delete comes after a logout's issues none. -/
structure SingleUse (token jti : String) (c : AuthConfig) : Prop where
  once : ∀ p e h, Refreshes token c p → e :: h <:+ c.world.history → e.pid = p → Issues e →
    ¬Issued p h
  one : ∀ p q, Refreshes token c p → Refreshes token c q → Issued p c.world.history →
    Issued q c.world.history → p = q
  returned : ∀ p P pair, c.procs p = some P → P.prog = .done (.ok (some pair)) →
    Issued p c.world.history
  revoked : ∀ p q r h, Refreshes token c p → LogsOut token c q →
    ⟨p, .redisDel (refreshKey jti), r⟩ :: h <:+ c.world.history → Deleted jti q h →
      ¬Issued p c.world.history

/-- The step does not delete the key of `jti` while another process has found it and has not
deleted it yet. -/
def RotatedAlone (sub jti : String) (w : AuthWorld) : Action sig Pid Drift Op → Prop
  | .command ⟨p, .redisDel key, _⟩ => key = refreshKey jti →
      ∀ q, q ≠ p → Found sub jti q w.history → Deleted jti q w.history
  | _ => True

section Decidable

variable {sub jti : String} {p : Pid} {h : List AuthEvent}

instance : Decidable (Found sub jti p h) := inferInstanceAs (Decidable (_ ∧ _))

instance : Decidable (Deleted jti p h) := inferInstanceAs (Decidable (∃ e ∈ h, _ ∧ _))

instance (e : AuthEvent) : Decidable (Issues e) := by
  unfold Issues
  split <;> infer_instance

instance : Decidable (Issued p h) := inferInstanceAs (Decidable (∃ e ∈ h, _ ∧ _))

instance : Decidable (∀ q, q ≠ p → Found sub jti q h → Deleted jti q h) :=
  decidable_of_iff (∀ e ∈ h, e.pid ≠ p → Found sub jti e.pid h → Deleted jti e.pid h)
    ⟨fun hall _ hq hf => hall _ hf.2 hq hf, fun hall e _ => hall e.pid⟩

instance (w : AuthWorld) : (a : Action sig Pid Drift Op) → Decidable (RotatedAlone sub jti w a)
  | .command ⟨_, .redisDel key, _⟩ => inferInstanceAs (Decidable (key = refreshKey jti → _))
  | .command ⟨_, .dateNow, _⟩ | .command ⟨_, .redisGet _, _⟩ | .command ⟨_, .redisSet .., _⟩
  | .command ⟨_, .findUser _, _⟩ | .command ⟨_, .randomUUID, _⟩ | .start .. | .drift _ =>
    isTrue trivial

end Decidable

/-- Once the key is gone it stays gone, and at most one process has found it before. -/
structure Rotated (sub jti : String) (w : AuthWorld) : Prop where
  drawn : jti ∈ w.shared.uuids
  notDrawn : ∀ p, ⟨p, .randomUUID, jti⟩ ∉ w.history
  gone : Gone jti w.history → w.shared.redis (refreshKey jti) = none
  deleted : Gone jti w.history → ∀ p, Found sub jti p w.history → Deleted jti p w.history
  unique : Gone jti w.history → ∀ p q, Found sub jti p w.history → Found sub jti q w.history → p = q
  first : ∀ p r h, ⟨p, .redisDel (refreshKey jti), r⟩ :: h <:+ w.history →
    Found sub jti p h → ¬Gone jti h

section Invariant

variable {mac : IdealMac} {env : JwtEnv} {sub jti : String} {c d : AuthConfig}
  {a : Action sig Pid Drift Op} {h : List AuthEvent} {e : AuthEvent} {p : Pid}

theorem refreshKey_injective : Function.Injective refreshKey := by
  intro s t hst
  simpa [refreshKey] using hst

theorem Deleted.gone (hd : Deleted jti p h) : Gone jti h := by
  obtain ⟨e, he, -, hcmd⟩ := hd
  exact ⟨e, he, hcmd⟩

theorem Deleted.cons (hd : Deleted jti p h) : Deleted jti p (e :: h) := by
  obtain ⟨e', he, hp⟩ := hd
  exact ⟨e', List.mem_cons_of_mem _ he, hp⟩

theorem gone_cons : Gone jti (e :: h) ↔ e.cmd = .redisDel (refreshKey jti) ∨ Gone jti h := by
  simp [Gone]

theorem found_cons : Found sub jti p (e :: h) ↔
    (sub ≠ "" ∧ e = ⟨p, .redisGet (refreshKey jti), some sub⟩) ∨ Found sub jti p h := by
  simp only [Found, List.mem_cons, eq_comm (a := e)]
  tauto

/-- A step that neither deletes the key nor finds nor creates it. -/
theorem Rotated.command {w : AuthWorld} {s : Store} (hi : Rotated sub jti w)
    (hcmd : e.cmd ≠ .redisDel (refreshKey jti))
    (hget : Gone jti w.history → ∀ p, e ≠ ⟨p, .redisGet (refreshKey jti), some sub⟩)
    (hdraw : ∀ p, e ≠ ⟨p, .randomUUID, jti⟩)
    (hredis : Gone jti w.history → s.redis (refreshKey jti) = none)
    (huuids : jti ∈ s.uuids) : Rotated sub jti (w.after e s) := by
  have hgone : Gone jti (e :: w.history) → Gone jti w.history := fun hg =>
    (gone_cons.mp hg).resolve_left hcmd
  have hfound : Gone jti (e :: w.history) → ∀ p, Found sub jti p (e :: w.history) →
      Found sub jti p w.history := fun hg p hf =>
    (found_cons.mp hf).resolve_left fun hf => hget (hgone hg) p hf.2
  refine ⟨huuids, fun p hp => ?_, fun hg => hredis (hgone hg), fun hg p hf => ?_,
    fun hg p q hp hq => ?_, fun p r h hsuf => ?_⟩
  · rcases List.mem_cons.mp hp with hp | hp
    · exact hdraw p hp.symm
    · exact hi.notDrawn p hp
  · exact (hi.deleted (hgone hg) p (hfound hg p hf)).cons
  · exact hi.unique (hgone hg) p q (hfound hg p hp) (hfound hg q hq)
  · rcases List.suffix_cons_iff.mp hsuf with heq | hsuf
    · cases heq
      exact absurd rfl hcmd
    · exact hi.first p r h hsuf

/-- The process that deletes the key has not deleted it before, if it has found it. -/
theorem not_deleted_of_rule {op : Op}
    (hrule : Rule mac env p op (transcript p h) (.redisDel (refreshKey jti)))
    (hf : Found sub jti p h) : ¬Deleted jti p h := by
  rintro ⟨⟨q, cmd, r⟩, he, rfl, rfl⟩
  cases op with
  | refresh token =>
    obtain ⟨-, -, -, hnone⟩ := hrule
    exact hnone r (mem_transcript.mpr he)
  | logout token => exact hrule _ _ (mem_transcript.mpr hf.2)

theorem Rotated.delete {w : AuthWorld} {s : Store} {op : Op} {r : ℕ} (hi : Rotated sub jti w)
    (hrule : Rule mac env p op (transcript p w.history) (.redisDel (refreshKey jti)))
    (hal : ∀ q, q ≠ p → Found sub jti q w.history → Deleted jti q w.history)
    (hredis : s.redis (refreshKey jti) = none) (huuids : s.uuids = w.shared.uuids) :
    Rotated sub jti (w.after ⟨p, .redisDel (refreshKey jti), r⟩ s) := by
  have hfound : ∀ q, Found sub jti q (⟨p, .redisDel (refreshKey jti), r⟩ :: w.history) →
      Found sub jti q w.history := fun q hf => (found_cons.mp hf).resolve_left fun hf => by
    cases hf.2
  -- whoever has found the key is `p`, or there has been a delete already
  have hself : ∀ q, ¬Gone jti w.history → Found sub jti q w.history → q = p := by
    intro q hg hf
    by_contra hqp
    exact hg (hal q hqp hf).gone
  refine ⟨huuids ▸ hi.drawn, fun q hq => ?_, fun _ => hredis, fun _ q hf => ?_,
    fun _ q q' hq hq' => ?_, fun q r' h hsuf => ?_⟩
  · rcases List.mem_cons.mp hq with hq | hq
    · cases hq
    · exact hi.notDrawn q hq
  · by_cases hqp : q = p
    · exact ⟨_, List.mem_cons_self, hqp.symm, rfl⟩
    · exact (hal q hqp (hfound q hf)).cons
  · by_cases hg : Gone jti w.history
    · exact hi.unique hg q q' (hfound q hq) (hfound q' hq')
    · exact (hself q hg (hfound q hq)).trans (hself q' hg (hfound q' hq')).symm
  · rcases List.suffix_cons_iff.mp hsuf with heq | hsuf
    · cases heq
      exact fun hf hg => not_deleted_of_rule hrule hf (hi.deleted hg p hf)
    · exact hi.first q r' h hsuf

theorem rotated_step (hconf : System.Conforms (Rule mac env) Stored c)
    (hi : Rotated sub jti c.world) (hal : RotatedAlone sub jti c.world a)
    (h : (service mac env).Steps c a d) : Rotated sub jti d.world := by
  cases h with
  | start => exact hi
  | @drift e s hx =>
    cases e with
    | tick n =>
      cases hx
      exact ⟨hi.drawn, hi.notDrawn, fun hg => by simp [hi.gone hg], hi.deleted, hi.unique, hi.first⟩
    | setUser id user =>
      cases hx
      exact ⟨hi.drawn, hi.notDrawn, hi.gone, hi.deleted, hi.unique, hi.first⟩
  | @command p i P cmd k r s hp hk hx =>
    have hrule := hconf.allowed hp hk
    cases cmd with
    | dateNow | findUser =>
      cases hx
      exact hi.command nofun (fun _ _ => nofun) (fun _ => nofun) hi.gone hi.drawn
    | redisGet key =>
      cases hx
      refine hi.command nofun (fun hg p heq => ?_) (fun _ => nofun) hi.gone hi.drawn
      -- a key that is gone is not found
      injection heq with _ hcmd hans
      cases hcmd
      rw [hi.gone hg] at hans
      simp at hans
    | redisSet key value ttlSeconds =>
      cases hx
      have hkey : refreshKey jti ≠ key := by
        rintro rfl
        cases hop : P.op with
        | refresh token =>
          rw [hop] at hrule
          obtain ⟨-, ⟨jti', hjti, hkey⟩, -⟩ := hrule
          rw [refreshKey_injective hkey] at hi
          exact hi.notDrawn p (mem_transcript.mp hjti)
        | logout token =>
          rw [hop] at hrule
          exact hrule
      refine hi.command nofun (fun _ _ => nofun) (fun _ => nofun) (fun hg => ?_) hi.drawn
      rw [Store.set_redis_of_ne _ _ hkey]
      exact hi.gone hg
    | redisDel key =>
      cases hx
      by_cases hkey : key = refreshKey jti
      · subst hkey
        exact hi.delete hrule (hal rfl) (by simp) rfl
      · refine hi.command (fun he => hkey (Cmd.redisDel.inj he)) (fun _ _ => nofun) (fun _ => nofun)
          (fun hg => ?_) hi.drawn
        rw [Store.set_redis_of_ne _ _ (Ne.symm hkey)]
        exact hi.gone hg
    | randomUUID =>
      simp only [service, exec, Option.ite_none_left_eq_some, Option.some.injEq,
        Prod.mk.injEq] at hx
      -- ids are drawn once, and the one of the token has been drawn
      obtain ⟨hnew, rfl, rfl⟩ := hx
      refine hi.command nofun (fun _ _ => nofun) (fun q heq => ?_) hi.gone
        (List.mem_cons_of_mem _ hi.drawn)
      cases heq
      exact hnew hi.drawn

theorem rotated_init {s : Store} (hjti : jti ∈ s.uuids) : Rotated sub jti ⟨s, []⟩ :=
  ⟨hjti, fun _ => List.not_mem_nil, fun hg => by simp [Gone] at hg, fun hg => by simp [Gone] at hg,
    fun hg => by simp [Gone] at hg, fun _ _ _ hsuf => absurd (List.suffix_nil.mp hsuf) (by simp)⟩

/-- A token verifies with the payload it was signed with. -/
theorem Verified.eq_of_sign {signer : JwtEnv} {signedAt : ℤ} {payload : Payload}
    {signed : RefreshTokenPayload}
    (hv : Verified mac env (signRefreshToken mac signer signedAt signed) payload) :
    payload = .refresh signed := by
  obtain ⟨now, hv⟩ := hv
  obtain ⟨s, ho, -, -, hp⟩ := verifyWithRotation_eq_ok.mp hv
  rw [signRefreshToken, openText_sign] at ho
  cases ho
  exact hp.symm

theorem Found.mono {h' : List AuthEvent} (hf : Found sub jti p h) (hsub : h ⊆ h') :
    Found sub jti p h' :=
  ⟨hf.1, hsub hf.2⟩

/-- Who issues a pair for a token has found the token's key before. -/
theorem found_of_issues {token orgId : String} {h : List AuthEvent}
    (hconf : System.Conforms (Rule mac env) Stored c)
    (hpay : ∀ payload, Verified mac env token payload → payload = .refresh ⟨sub, orgId, jti⟩)
    (hp : Refreshes token c e.pid) (hsuf : e :: h <:+ c.world.history) (he : Issues e) :
    Found sub jti e.pid h ∧ Gone jti h ∧ ¬Issued e.pid h := by
  obtain ⟨P, hP, hop⟩ := hp
  obtain ⟨P', hP', hrule⟩ := hconf.ordered e h hsuf
  obtain rfl := Option.some.inj (hP.symm.trans hP')
  obtain ⟨p, cmd, r⟩ := e
  rw [hop] at hrule
  cases cmd with
  | dateNow | redisGet | redisDel | findUser | randomUUID => exact he.elim
  | redisSet key value ttlSeconds =>
    obtain ⟨⟨payload, ⟨hv, hne, hget⟩, r', hdel⟩, -, hnone⟩ := hrule
    obtain rfl := hpay payload hv
    refine ⟨⟨hne, mem_transcript.mp hget⟩, ⟨_, mem_transcript.mp hdel, rfl⟩, ?_⟩
    rintro ⟨⟨q, cmd, r⟩, hmem, rfl, hissues⟩
    cases cmd with
    | dateNow | redisGet | redisDel | findUser | randomUUID => exact hissues
    | redisSet key value ttlSeconds => exact hnone key value ttlSeconds (mem_transcript.mpr hmem)

end Invariant

/-- If no delete of the token's key falls between another refresh's check and that refresh's own
delete, the token is used once. -/
theorem singleUse_of_rotatedAlone (mac : IdealMac) (env signer : JwtEnv) (signedAt : ℤ)
    (sub orgId jti : String) (s : Store) (ls : List AuthLabel) (c : AuthConfig)
    (hjti : jti ∈ s.uuids)
    (hrun : (service mac env).run (.init s) ls = some c)
    (hal : (service mac env).Along (fun c => RotatedAlone sub jti c.world) (.init s) ls) :
    SingleUse (signRefreshToken mac signer signedAt ⟨sub, orgId, jti⟩) jti c := by
  have hconf := System.conforms_run (obeys mac env) hrun
  have hi : Rotated sub jti c.world :=
    System.invariant_run (obeys mac env)
      (fun _ _ _ hconf hi ha hstep => rotated_step hconf hi ha hstep)
      (System.conforms_init _) (rotated_init hjti) hrun hal
  have hpay : ∀ payload, Verified mac env (signRefreshToken mac signer signedAt ⟨sub, orgId, jti⟩)
      payload → payload = .refresh ⟨sub, orgId, jti⟩ := fun _ => Verified.eq_of_sign
  have hissued : ∀ p, Refreshes (signRefreshToken mac signer signedAt ⟨sub, orgId, jti⟩) c p →
      Issued p c.world.history → Found sub jti p c.world.history ∧ Gone jti c.world.history := by
    rintro p hp ⟨e, he, rfl, hissues⟩
    obtain ⟨_, h, _, hsuf, _⟩ := hconf.exists_of_mem he
    obtain ⟨hf, ⟨e', he', hcmd⟩, -⟩ := found_of_issues hconf hpay hp hsuf hissues
    have hsub : h ⊆ c.world.history := fun _ hx => hsuf.subset (List.mem_cons_of_mem _ hx)
    exact ⟨hf.mono hsub, e', hsub he', hcmd⟩
  refine ⟨?_, fun p q hp hq hip hiq => ?_, fun p P pair hp hr => ?_,
    fun p q r h hp hq hsuf hd => ?_⟩
  · rintro p e h hp hsuf rfl hissues
    exact (found_of_issues hconf hpay hp hsuf hissues).2.2
  · obtain ⟨hfp, hg⟩ := hissued p hp hip
    exact hi.unique hg p q hfp (hissued q hq hiq).1
  · obtain ⟨key, value, ttlSeconds, hset⟩ := hconf.result hp hr pair rfl
    exact ⟨_, mem_transcript.mp hset, rfl, trivial⟩
  · -- the delete of `p` would have had to come first
    obtain ⟨P, hP, hop⟩ := hp
    obtain ⟨P', hP', hrule⟩ := hconf.ordered _ h hsuf
    obtain rfl := Option.some.inj (hP.symm.trans hP')
    rw [hop] at hrule
    obtain ⟨payload, ⟨hv, hne, hget⟩, -⟩ := hrule
    obtain rfl := hpay payload hv
    exact absurd hd.gone (hi.first p r h hsuf ⟨hne, mem_transcript.mp hget⟩)

def demoEnv : JwtEnv := ⟨"0123456789abcdef0123456789abcdef", none⟩

/-- The refresh token of one login. -/
def demoToken : String := signRefreshToken fieldsMac demoEnv 0 ⟨"user", "org", "a"⟩

/-- Redis and the user table after that login. -/
def demoStore : Store where
  clock := 0
  redis key := if key = refreshKey "a" then some ⟨"user", 604800000⟩ else none
  users id := if id = "user" then some ⟨"user", "org", "OWNER"⟩ else none
  uuids := ["a"]

/-- The labels by which `p` verifies the token and checks its key. -/
def checkLabels (p : Pid) : List AuthLabel :=
  [.start p (.refresh demoToken), .step p "", .step p ""]

/-- The labels by which `p` deletes the key and issues a pair with the id `jti`. -/
def rotateLabels (p : Pid) (jti : String) : List AuthLabel :=
  [.step p "", .step p "", .step p jti, .step p jti, .step p jti, .step p jti]

/-- Process 0 refreshes, then 1 tries the same token again. -/
theorem singleUse_of_rotatedAlone_replay : ∃ c,
    (service fieldsMac demoEnv).run (.init demoStore)
      (checkLabels 0 ++ rotateLabels 0 "b" ++ checkLabels 1) = some c ∧
      SingleUse demoToken "a" c ∧ Issued 0 c.world.history := by
  have hrun : ((service fieldsMac demoEnv).run (.init demoStore)
      (checkLabels 0 ++ rotateLabels 0 "b" ++ checkLabels 1)).map
        (fun c => decide (Issued 0 c.world.history)) = some true := by decide +kernel
  obtain ⟨c, hc, hissued⟩ := Option.map_eq_some_iff.mp hrun
  exact ⟨c, hc, singleUse_of_rotatedAlone fieldsMac demoEnv demoEnv 0 "user" "org" "a" demoStore _ c
    (by decide) hc (by decide +kernel), of_decide_eq_true hissued⟩

/-- Processes 0 and 1 both check the key before either deletes it, and both issue a pair. -/
theorem singleUse_fails : ¬∀ (mac : IdealMac) (env signer : JwtEnv) (signedAt : ℤ)
    (sub orgId jti : String) (s : Store) (ls : List AuthLabel) (c : AuthConfig),
    jti ∈ s.uuids → (service mac env).run (.init s) ls = some c →
      SingleUse (signRefreshToken mac signer signedAt ⟨sub, orgId, jti⟩) jti c := by
  intro h
  have hrun : ((service fieldsMac demoEnv).run (.init demoStore)
      (checkLabels 0 ++ checkLabels 1 ++ rotateLabels 0 "b" ++ rotateLabels 1 "c")).map
        (fun c => ((c.procs 0).map Proc.op, (c.procs 1).map Proc.op,
          decide (Issued 0 c.world.history), decide (Issued 1 c.world.history))) =
      some (some (.refresh demoToken), some (.refresh demoToken), true, true) := by decide +kernel
  obtain ⟨c, hc, hproj⟩ := Option.map_eq_some_iff.mp hrun
  simp only [Prod.mk.injEq, decide_eq_true_eq] at hproj
  obtain ⟨h0, h1, hissued0, hissued1⟩ := hproj
  have hsingle : SingleUse demoToken "a" c :=
    h fieldsMac demoEnv demoEnv 0 "user" "org" "a" demoStore _ c (by decide) hc
  have hrefreshes : ∀ p, (c.procs p).map Proc.op = some (.refresh demoToken) →
      Refreshes demoToken c p := fun p hp => Option.map_eq_some_iff.mp hp
  exact absurd (hsingle.one 0 1 (hrefreshes 0 h0) (hrefreshes 1 h1) hissued0 hissued1) (by decide)

end CloudMesh.Auth.Refresh
