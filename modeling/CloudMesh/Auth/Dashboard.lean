import CloudMesh.Auth.Refresh
import CloudMesh.Concurrent.Rely
import CloudMesh.Concurrent.Sequential
import Mathlib.Data.Fintype.EquivFin
import Mathlib.Tactic.NormNum

/-!
# Calls of the dashboard with an expired session

`callApiWithRefresh` of `apps/dashboard/src/lib/apiClient.ts` behind the proxy route, any number of
calls that start from one session. Each call that is answered 401 refreshes the session by itself,
but the refresh token works once: a call that looks for the token's key after another call has
deleted it is left with its 401. The browser keeps the session of the response that comes last.

## Main definitions

- `handle` — the proxy route with what it calls
- `dashboard` — the system
- `Survives` — no call is answered 401, and the session that is kept can be refreshed
- `InStep` — the condition on steps
-/

namespace CloudMesh.Auth.Dashboard

open Concurrent Refresh

structure SessionUser where
  id : String
  email : String
  role : String
  orgId : String
  deriving DecidableEq, Repr

structure Session where
  accessToken : String
  refreshToken : String
  user : SessionUser
  deriving DecidableEq, Repr

/-- The commands of the API's refresh, and what happens between the API, the dashboard and the
browser. `limit` is the global rate limit, asked for a refresh. -/
inductive Cmd
  | api (c : Refresh.Cmd)
  | callApi (accessToken path : String)
  | limit
  | respond (status : ℕ) (session : Option Session)
  deriving DecidableEq, Repr

abbrev sig : Signature where
  Cmd := Cmd
  Ans
    | .api c => Refresh.sig.Ans c
    | .callApi .. => ℕ
    | .limit => Bool
    | .respond .. => Unit

/-- The API's store, and the session that the browser keeps. -/
structure Store where
  api : Refresh.Store
  cookie : Session

/-- What is not decided by the store: an id that is drawn, and the status of an answer. -/
structure Choice where
  uuid : String
  status : ℕ

section Code

variable (mac : IdealMac) (env : JwtEnv)

/-- An upstream endpoint takes any valid access token; the rate limit comes before it. -/
def answers (now : ℤ) (accessToken : String) (status : ℕ) : Prop :=
  status = 429 ∨
    match verifyAccessToken mac env now accessToken with
    | .ok _ => status ≠ 401
    | .error _ => status = 401

instance (now : ℤ) (accessToken : String) (status : ℕ) :
    Decidable (answers mac env now accessToken status) := by
  rw [answers]
  cases verifyAccessToken mac env now accessToken <;> exact inferInstance

def exec (p : Pid) (c : sig.Cmd) (i : Choice) (s : Store) : Option (sig.Ans c × Store) :=
  match c with
  | .api c => (Refresh.exec p c i.uuid s.api).map fun (r, api) => (r, { s with api := api })
  | .callApi accessToken _ =>
    if answers mac env s.api.clock accessToken i.status then some (i.status, s) else none
  | .limit => some (i.status = 429, s)
  | .respond _ session => some ((), { s with cookie := session.getD s.cookie })

def drift (e : Drift) (s : Store) : Option Store :=
  (Refresh.drift e s.api).map fun api => { s with api := api }

abbrev Prog := Program sig

def call (c : sig.Cmd) : Prog (sig.Ans c) := Program.call c

def callApi (session : Session) (path : String) : Prog ℕ :=
  call (.callApi session.accessToken path)

/-- A program of the API, over the commands of the system. -/
def overApi {α : Type} (x : Handler Refresh.sig Thrown α) : Prog (Except Thrown α) :=
  x.run.translate fun c => call (.api c)

/-- The request to `/auth/refresh`; the tokens come as the cookie and the body say. -/
def refreshSession (session : Session) : Prog (Option Session) := do
  let limited ← call .limit
  if limited = true then pure none
  else
    let result ← overApi (refresh mac env session.refreshToken)
    match result with
    | .error _ => pure none
    | .ok pair => pure (some ⟨pair.accessToken, pair.refreshToken, session.user⟩)

/-- The status of the response, and the session that has been passed to `onRefreshed`. -/
def callApiWithRefresh (session : Session) (path : String) : Prog (ℕ × Option Session) := do
  let status ← callApi session path
  if status ≠ 401 then pure (status, none)
  else
    let refreshed ← refreshSession mac env session
    match refreshed with
    | none => pure (status, none)
    | some refreshed => do
      let status ← callApi refreshed path
      pure (status, some refreshed)

/-- The browser keeps the session that has been set on the response. -/
def handle (session : Session) (path : String) : Prog ℕ := do
  let (status, stored) ← callApiWithRefresh mac env session path
  let _ ← call (.respond status stored)
  pure status

/-- Every call of a path starts from the same session. -/
def dashboard (session : Session) : System sig Pid Store Choice Drift String ℕ where
  exec := exec mac env
  drift := drift
  code _ path := handle mac env session path

end Code

abbrev DashWorld := World sig Pid Store

abbrev DashConfig := Config sig Pid Store String ℕ

abbrev DashEvent := Event sig Pid

abbrev DashLabel := Label Pid Choice Drift String

/-! ## Surviving -/

/-- The API's answer to a command, and the store it leaves. -/
def Answers (s : Refresh.Store) (c : Refresh.sig.Cmd) (r : Refresh.sig.Ans c)
    (s' : Refresh.Store) : Prop :=
  ∃ p i, Refresh.exec p c i s = some (r, s')

/-- A refresh that runs alone returns a pair. -/
def Accepts (mac : IdealMac) (env : JwtEnv) (s : Refresh.Store) (token : String) : Prop :=
  ∃ pair s', (refresh mac env token).Runs Answers s (.ok pair) s'

/-- No call has been answered 401; when all have been answered, the session that the browser keeps
can be refreshed. -/
structure Survives (mac : IdealMac) (env : JwtEnv) (c : DashConfig) : Prop where
  answered : ∀ p P, c.procs p = some P → P.prog ≠ .done 401
  kept : (∀ p P, c.procs p = some P → ∃ status, P.prog = .done status) →
    Accepts mac env c.world.shared.api c.world.shared.cookie.refreshToken

/-- The session of a login whose refresh token is valid and has not been revoked. -/
structure LoggedIn (mac : IdealMac) (env : JwtEnv) (session : Session) (signedAt expireAt : ℤ)
    (login : RefreshTokenPayload) (s : Store) : Prop where
  token : ∃ signer : JwtEnv, env.Uses signer.jwtSecret ∧
    session.refreshToken = signRefreshToken mac signer signedAt login
  valid : seconds s.api.clock < seconds signedAt + refreshTokenTtlSeconds
  drawn : login.jti ∈ s.api.uuids
  unrevoked : s.api.redis (refreshKey login.jti) = some ⟨login.sub, expireAt⟩
  unexpired : s.api.clock < expireAt
  named : login.sub ≠ ""
  account : s.api.users login.sub ≠ none
  keyed : ∀ id user, s.api.users id = some user → user.id = id
  kept : s.cookie = session

/-- Some call has deleted the key of `jti`. -/
def Gone (jti : String) (h : List DashEvent) : Prop :=
  ∃ e ∈ h, e.cmd = .api (.redisDel (refreshKey jti))

/-- The access tokens issued from `start` on, the refresh token of the login and its key have not
expired. -/
def InTime (start signedAt expireAt now : ℤ) : Prop :=
  seconds now < seconds start + accessTokenTtlSeconds ∧
    seconds now < seconds signedAt + refreshTokenTtlSeconds ∧ now < expireAt

/-- A call looks for the key of the login before any call has deleted it, no refresh is limited,
nothing in use expires, and the account stays. -/
def InStep (start signedAt expireAt : ℤ) (login : RefreshTokenPayload) (w : DashWorld) :
    Action sig Pid Drift String → Prop
  | .command ⟨_, .api (.redisGet key), _⟩ => key = refreshKey login.jti → ¬Gone login.jti w.history
  | .command ⟨_, .limit, limited⟩ => limited = false
  | .drift (.tick d) => InTime start signedAt expireAt (w.shared.api.clock + d)
  | .drift (.setUser id user) =>
    (id = login.sub → user ≠ none) ∧ ∀ u, user = some u → u.id = id
  | _ => True

/-! ## What a refresh does -/

section Commands

variable (mac : IdealMac) (env : JwtEnv)

theorem overApi_call {α : Type} (c : Refresh.sig.Cmd)
    (f : Refresh.sig.Ans c → Handler Refresh.sig Thrown α) :
    overApi (command c >>= f) = .issue (S := sig) (.api c) fun r => overApi (f r) := rfl

/-- What `refresh` does, command by command. -/
theorem overApi_refresh (token : String) :
    overApi (refresh mac env token) =
      .issue (S := sig) (.api .dateNow) fun now =>
        match verifyRefreshToken mac env now token with
        | .error _ => .done (.error (.app (unauthorizedError "Invalid or expired refresh token")))
        | .ok payload =>
          .issue (.api (.redisGet (refreshKey (jtiOf payload)))) fun (stored : Option String) =>
            if stored ≠ some (subOf payload) ∨ stored = some "" then
              .done (.error (.app (unauthorizedError "Refresh token has been revoked")))
            else
              .issue (.api (.redisDel (refreshKey (jtiOf payload)))) fun _ =>
                .issue (.api (.findUser (subOf payload))) fun (user : Option User) =>
                  match user with
                  | none => .done (.error (.app (unauthorizedError "Account no longer exists")))
                  | some user =>
                    .issue (.api .randomUUID) fun (jti : String) =>
                      .issue (.api .dateNow) fun (signedAt : ℤ) =>
                        .issue (.api .dateNow) fun (now : ℤ) =>
                          .issue (.api (.redisSet (refreshKey jti) user.id refreshTtlSeconds))
                            fun _ => .done (.ok
                              ⟨signAccessToken mac env signedAt ⟨user.id, user.orgId, user.role⟩,
                                signRefreshToken mac env now ⟨user.id, user.orgId, jti⟩⟩) := by
  rw [refresh, overApi_call]
  refine congrArg (Program.issue (S := sig) (.api .dateNow)) (funext fun now => ?_)
  cases verifyRefreshToken mac env now token with
  | error e => rfl
  | ok payload =>
    dsimp only
    rw [overApi_call]
    refine congrArg (Program.issue (S := sig) (.api (.redisGet (refreshKey (jtiOf payload)))))
      (funext fun stored => ?_)
    split_ifs
    · rfl
    · rw [overApi_call]
      refine congrArg (Program.issue (S := sig) (.api (.redisDel (refreshKey (jtiOf payload)))))
        (funext fun _ => ?_)
      rw [overApi_call]
      refine congrArg (Program.issue (S := sig) (.api (.findUser (subOf payload))))
        (funext fun user => ?_)
      cases user with
      | none => rfl
      | some user => rfl

end Commands

/-! ## What the calls keep -/

section Pact

/-- The token of a session that has been issued since `start`, and its key is stored for as long. -/
def Fresh (mac : IdealMac) (env : JwtEnv) (start : ℤ) (login : RefreshTokenPayload)
    (token : String) (w : DashWorld) : Prop :=
  ∃ orgId jti issuedAt expireAt,
    token = signRefreshToken mac env issuedAt ⟨login.sub, orgId, jti⟩ ∧ start ≤ issuedAt ∧
      jti ≠ login.jti ∧
      w.shared.api.redis (refreshKey jti) = some ⟨login.sub, expireAt⟩ ∧
      start + refreshTtlSeconds * 1000 ≤ expireAt

/-- Some response has set a session. -/
def Responded (h : List DashEvent) : Prop :=
  ∃ e ∈ h, ∃ status session, e.cmd = .respond status (some session)

/-- `p` has deleted the key of `jti`. -/
def Deleted (jti : String) (p : Pid) (h : List DashEvent) : Prop :=
  ∃ e ∈ h, e.pid = p ∧ e.cmd = .api (.redisDel (refreshKey jti))

/-- What holds at all times. -/
structure Inv (mac : IdealMac) (env : JwtEnv) (session : Session) (start signedAt expireAt : ℤ)
    (login : RefreshTokenPayload) (w : DashWorld) : Prop where
  started : start ≤ w.shared.api.clock
  inTime : InTime start signedAt expireAt w.shared.api.clock
  drawn : login.jti ∈ w.shared.api.uuids
  held : ¬Gone login.jti w.history →
    w.shared.api.redis (refreshKey login.jti) = some ⟨login.sub, expireAt⟩
  account : w.shared.api.users login.sub ≠ none
  keyed : ∀ id user, w.shared.api.users id = some user → user.id = id
  kept : w.shared.cookie = session ∧ ¬Responded w.history ∨
    Fresh mac env start login w.shared.cookie.refreshToken w

/-- What the others leave to `p`. -/
structure Rely (mac : IdealMac) (env : JwtEnv) (start : ℤ) (login : RefreshTokenPayload) (p : Pid)
    (w w' : DashWorld) : Prop where
  deleted : Deleted login.jti p w'.history → Deleted login.jti p w.history
  fresh : ∀ token, Fresh mac env start login token w → Fresh mac env start login token w'
  responded : Responded w.history → Responded w'.history

def pact (mac : IdealMac) (env : JwtEnv) (session : Session) (start signedAt expireAt : ℤ)
    (login : RefreshTokenPayload) : Pact sig Pid Store Drift String where
  inv := Inv mac env session start signedAt expireAt login
  rely := Rely mac env start login
  permits := InStep start signedAt expireAt login
  refl _ _ := ⟨id, fun _ => id, id⟩
  trans _ _ _ _ h h' :=
    ⟨h.deleted ∘ h'.deleted, fun token => h'.fresh token ∘ h.fresh token,
      h'.responded ∘ h.responded⟩

/-- A call ends with another status than 401, and with a session if it has used up the token. -/
def Served (login : RefreshTokenPayload) (p : Pid) (_ : String) (w : DashWorld) (status : ℕ) :
    Prop :=
  status ≠ 401 ∧ (Deleted login.jti p w.history → Responded w.history)

variable {mac : IdealMac} {env : JwtEnv} {session : Session} {start signedAt expireAt : ℤ}
  {login : RefreshTokenPayload} {p : Pid} {w : DashWorld} {e : DashEvent} {h : List DashEvent}
  {s : Store}

theorem gone_cons {jti : String} :
    Gone jti (e :: h) ↔ e.cmd = .api (.redisDel (refreshKey jti)) ∨ Gone jti h := by
  simp [Gone]

theorem responded_cons :
    Responded (e :: h) ↔ (∃ status session, e.cmd = .respond status (some session)) ∨
      Responded h := by
  simp [Responded]

theorem deleted_cons {jti : String} : Deleted jti p (e :: h) ↔
    e.pid = p ∧ e.cmd = .api (.redisDel (refreshKey jti)) ∨ Deleted jti p h := by
  simp [Deleted]

theorem Fresh.of_redis_eq {token : String} {w' : DashWorld}
    (hf : Fresh mac env start login token w)
    (hredis : ∀ jti, jti ≠ login.jti →
      w'.shared.api.redis (refreshKey jti) = w.shared.api.redis (refreshKey jti)) :
    Fresh mac env start login token w' := by
  obtain ⟨orgId, jti, issuedAt, expireAt, htoken, hissued, hne, hkey, hexpire⟩ := hf
  exact ⟨orgId, jti, issuedAt, expireAt, htoken, hissued, hne, (hredis jti hne).trans hkey, hexpire⟩

/-- What a step of `p` leaves to the others. -/
theorem rely_of_step (hfresh : ∀ token, Fresh mac env start login token w →
      Fresh mac env start login token (w.after e s)) (q : Pid) (hq : some q ≠ some e.pid) :
    Rely mac env start login q w (w.after e s) := by
  refine ⟨fun hd => ?_, hfresh, fun hr => responded_cons.mpr (.inr hr)⟩
  rcases deleted_cons.mp hd with ⟨hpid, -⟩ | hd
  · exact absurd (congrArg some hpid.symm) hq
  · exact hd

/-- A step that leaves the key of the login and the session alone. -/
theorem keeps_of_command (hi : Inv mac env session start signedAt expireAt login w)
    (hclock : s.api.clock = w.shared.api.clock) (husers : s.api.users = w.shared.api.users)
    (huuids : w.shared.api.uuids ⊆ s.api.uuids) (hcookie : s.cookie = w.shared.cookie)
    (hrespond : ∀ status x, e.cmd ≠ .respond status (some x))
    (hheld : s.api.redis (refreshKey login.jti) = w.shared.api.redis (refreshKey login.jti))
    (hfresh : ∀ token, Fresh mac env start login token w →
      Fresh mac env start login token (w.after e s)) :
    (pact mac env session start signedAt expireAt login).Keeps (some e.pid) w (w.after e s) := by
  have hnot : Responded (e :: w.history) → Responded w.history := by
    intro hr
    rcases responded_cons.mp hr with ⟨status, x, hx⟩ | hr
    · exact absurd hx (hrespond status x)
    · exact hr
  refine ⟨⟨?_, ?_, huuids hi.drawn, fun hg => ?_, ?_, ?_, ?_⟩, rely_of_step hfresh⟩
  · exact hi.started.trans hclock.ge
  · exact hclock ▸ hi.inTime
  · exact hheld.trans (hi.held fun hgone => hg (gone_cons.mpr (.inr hgone)))
  · exact husers ▸ hi.account
  · exact husers ▸ hi.keyed
  · rcases hi.kept with ⟨hsame, hno⟩ | hf
    · exact .inl ⟨hcookie.trans hsame, fun hr => hno (hnot hr)⟩
    · right
      rw [World.after_shared, hcookie]
      exact hfresh _ hf

/-- A step that reads. -/
theorem keeps_of_read {c : sig.Cmd} {r : sig.Ans c}
    (hi : Inv mac env session start signedAt expireAt login w)
    (hrespond : ∀ status x, c ≠ .respond status (some x)) :
    (pact mac env session start signedAt expireAt login).Keeps (some p) w
      (w.after ⟨p, c, r⟩ w.shared) :=
  keeps_of_command (e := ⟨p, c, r⟩) hi rfl rfl (List.Subset.refl _) rfl hrespond rfl
    fun _ hf => hf.of_redis_eq fun _ _ => rfl

theorem keeps_of_delete {r : ℕ} (hi : Inv mac env session start signedAt expireAt login w) :
    (pact mac env session start signedAt expireAt login).Keeps (some p) w
      (w.after ⟨p, .api (.redisDel (refreshKey login.jti)), r⟩
        { w.shared with api := w.shared.api.set (refreshKey login.jti) none }) := by
  have hredis : ∀ jti, jti ≠ login.jti →
      (w.shared.api.set (refreshKey login.jti) none).redis (refreshKey jti) =
        w.shared.api.redis (refreshKey jti) :=
    fun jti hne => Store.set_redis_of_ne _ _ fun heq => hne (refreshKey_injective heq)
  have hfresh : ∀ token, Fresh mac env start login token w → Fresh mac env start login token
      (w.after ⟨p, .api (.redisDel (refreshKey login.jti)), r⟩
        { w.shared with api := w.shared.api.set (refreshKey login.jti) none }) :=
    fun token hf => hf.of_redis_eq hredis
  refine ⟨⟨hi.started, hi.inTime, hi.drawn, fun hg => ?_, hi.account, hi.keyed, ?_⟩,
    rely_of_step hfresh⟩
  · exact absurd (gone_cons.mpr (.inl rfl)) hg
  · rcases hi.kept with ⟨hsame, hno⟩ | hf
    · refine .inl ⟨hsame, fun hr => ?_⟩
      rcases responded_cons.mp hr with ⟨status, x, hx⟩ | hr
      · cases hx
      · exact hno hr
    · exact .inr (hfresh _ hf)

theorem keeps_of_respond {status : ℕ} {x : Session}
    (hi : Inv mac env session start signedAt expireAt login w)
    (hx : Fresh mac env start login x.refreshToken w) :
    (pact mac env session start signedAt expireAt login).Keeps (some p) w
      (w.after ⟨p, .respond status (some x), ()⟩ { w.shared with cookie := x }) := by
  refine ⟨⟨hi.started, hi.inTime, hi.drawn, fun hg => ?_, hi.account, hi.keyed, ?_⟩,
    rely_of_step (e := ⟨p, .respond status (some x), ()⟩) fun token hf =>
      hf.of_redis_eq fun _ _ => rfl⟩
  · exact hi.held fun hgone => hg (gone_cons.mpr (.inr hgone))
  · exact .inr (hx.of_redis_eq fun _ _ => rfl)

/-- The key of a new token is stored, and a key that is stored already stays as good. -/
theorem fresh_of_set {jti sub : String} (hi : Inv mac env session start signedAt expireAt login w)
    (hsub : sub = login.sub) (hne : jti ≠ login.jti) {token : String}
    (hf : Fresh mac env start login token w ∨
      ∃ orgId issuedAt, token = signRefreshToken mac env issuedAt ⟨login.sub, orgId, jti⟩ ∧
        start ≤ issuedAt) :
    Fresh mac env start login token
      (w.after ⟨p, .api (.redisSet (refreshKey jti) sub refreshTtlSeconds), ()⟩
        { w.shared with
          api := w.shared.api.set (refreshKey jti)
            (some ⟨sub, w.shared.api.clock + refreshTtlSeconds * 1000⟩) }) := by
  subst hsub
  have hlater : start + refreshTtlSeconds * 1000 ≤
      w.shared.api.clock + refreshTtlSeconds * 1000 := add_le_add_left hi.started _
  rcases hf with ⟨orgId, jti', issuedAt, expireAt', htoken, hissued, hne', hkey, hexpire⟩ | hnew
  · by_cases hjti : jti' = jti
    · subst hjti
      exact ⟨orgId, jti', issuedAt, _, htoken, hissued, hne', Store.set_redis_self _ _ _, hlater⟩
    · refine ⟨orgId, jti', issuedAt, expireAt', htoken, hissued, hne', ?_, hexpire⟩
      refine (Store.set_redis_of_ne _ _ fun heq => hjti (refreshKey_injective heq)).trans hkey
  · obtain ⟨orgId, issuedAt, htoken, hissued⟩ := hnew
    exact ⟨orgId, jti, issuedAt, _, htoken, hissued, hne, Store.set_redis_self _ _ _, hlater⟩

theorem keeps_of_set {jti sub : String} (hi : Inv mac env session start signedAt expireAt login w)
    (hsub : sub = login.sub) (hne : jti ≠ login.jti) :
    (pact mac env session start signedAt expireAt login).Keeps (some p) w
      (w.after ⟨p, .api (.redisSet (refreshKey jti) sub refreshTtlSeconds), ()⟩
        { w.shared with
          api := w.shared.api.set (refreshKey jti)
            (some ⟨sub, w.shared.api.clock + refreshTtlSeconds * 1000⟩) }) := by
  refine keeps_of_command (e := ⟨p, .api (.redisSet _ _ _), ()⟩) hi rfl rfl (List.Subset.refl _) rfl
    (fun status x heq => ?_) ?_ fun token hf => fresh_of_set hi hsub hne (.inl hf)
  · cases heq
  · exact Store.set_redis_of_ne _ _ fun heq => hne (refreshKey_injective heq).symm

/-! ## Why a call is served -/

theorem seconds_mono {t t' : ℤ} (h : t ≤ t') : seconds t ≤ seconds t' :=
  Int.ediv_le_ediv (by norm_num) h

theorem verify_login {signer : JwtEnv} (hsigner : env.Uses signer.jwtSecret)
    (hi : Inv mac env session start signedAt expireAt login w) :
    verifyRefreshToken mac env w.shared.api.clock (signRefreshToken mac signer signedAt login) =
      .ok (.refresh login) :=
  verifyWithRotation_eq_ok.mpr ⟨_, openText_sign _, hsigner, hi.inTime.2.1, rfl⟩

theorem verify_issued {issuedAt now : ℤ} {payload : AccessTokenPayload} (hissued : start ≤ issuedAt)
    (htime : InTime start signedAt expireAt now) :
    verifyAccessToken mac env now (signAccessToken mac env issuedAt payload) =
      .ok (.access payload) := by
  refine verifyWithRotation_eq_ok.mpr ⟨_, openText_sign _, .inl rfl, ?_, rfl⟩
  calc seconds now < seconds start + accessTokenTtlSeconds := htime.1
    _ ≤ seconds issuedAt + accessTokenTtlSeconds := add_le_add_left (seconds_mono hissued) _

theorem keeps_of_api_read {c : Refresh.sig.Cmd} {r : Refresh.sig.Ans c}
    (hi : Inv mac env session start signedAt expireAt login w) :
    (pact mac env session start signedAt expireAt login).Keeps (some p) w
      (w.after ⟨p, .api c, r⟩ w.shared) :=
  keeps_of_read hi fun status x heq => by cases heq

/-- The pair is of the account of the login, and has been issued since `start`. -/
def Renewed (mac : IdealMac) (env : JwtEnv) (start : ℤ) (login : RefreshTokenPayload)
    (accessToken refreshToken : String) (w : DashWorld) : Prop :=
  (∃ issuedAt payload, accessToken = signAccessToken mac env issuedAt payload ∧ start ≤ issuedAt) ∧
    Fresh mac env start login refreshToken w

/-- A refresh in step returns a pair. -/
theorem safe_refresh {signer : JwtEnv} (hsigner : env.Uses signer.jwtSecret)
    (hnamed : login.sub ≠ "") (w : DashWorld) :
    (pact mac env session start signedAt expireAt login).Safe (exec mac env) p
      (fun w' result => ∃ pair, result = .ok pair ∧
        Renewed mac env start login pair.accessToken pair.refreshToken w')
      (overApi (refresh mac env (signRefreshToken mac signer signedAt login))) w := by
  rw [overApi_refresh]
  -- the clock
  intro w₁ _ hi₁ i₁ now s₁ hx₁ _
  cases hx₁
  refine ⟨keeps_of_api_read hi₁, ?_⟩
  beta_reduce
  rw [verify_login hsigner hi₁]
  -- the key is there
  intro w₂ _ hi₂ i₂ stored s₂ hx₂ hstep
  obtain ⟨hstored, rfl⟩ := Prod.mk.inj (Option.some.inj hx₂)
  refine ⟨keeps_of_api_read hi₂, ?_⟩
  have hkey : (w₂.shared.api.redis (refreshKey login.jti)).map Entry.value = some login.sub := by
    rw [hi₂.held (hstep rfl)]
    rfl
  have hstored : stored = some login.sub := hstored.symm.trans hkey
  have hpasses : ¬(stored ≠ some (subOf (.refresh login)) ∨ stored = some "") := by
    rintro (hne | hempty)
    · exact hne hstored
    · exact hnamed (Option.some.inj (hstored.symm.trans hempty))
  beta_reduce
  rw [if_neg hpasses]
  -- the delete
  intro w₃ _ hi₃ i₃ count s₃ hx₃ _
  cases hx₃
  refine ⟨keeps_of_delete hi₃, ?_⟩
  -- the account
  intro w₄ _ hi₄ i₄ found s₄ hx₄ _
  obtain ⟨hfound, rfl⟩ := Prod.mk.inj (Option.some.inj hx₄)
  refine ⟨keeps_of_api_read hi₄, ?_⟩
  obtain ⟨user, huser⟩ := Option.ne_none_iff_exists'.mp hi₄.account
  have hid : user.id = login.sub := hi₄.keyed _ _ huser
  obtain rfl : found = some user := hfound.symm.trans huser
  -- the new id
  intro w₅ _ hi₅ i₅ jti s₅ hx₅ _
  have hdrawn : jti ∉ w₅.shared.api.uuids ∧ s₅ = { w₅.shared with
      api := { w₅.shared.api with uuids := jti :: w₅.shared.api.uuids } } := by
    simp only [exec, Refresh.exec, Option.map_eq_some_iff, Prod.exists, Prod.mk.injEq,
      Option.ite_none_left_eq_some, Option.some.injEq] at hx₅
    obtain ⟨_, _, ⟨hnew, rfl, rfl⟩, rfl, rfl⟩ := hx₅
    exact ⟨hnew, rfl⟩
  obtain ⟨hnew, rfl⟩ := hdrawn
  have hjti : jti ≠ login.jti := by
    rintro rfl
    exact hnew hi₅.drawn
  refine ⟨keeps_of_command (e := ⟨p, .api .randomUUID, jti⟩) hi₅ rfl rfl
    (List.subset_cons_self _ _) rfl (fun status x heq => by cases heq) rfl
    fun token hf => hf.of_redis_eq fun _ _ => rfl, ?_⟩
  -- the two times
  intro w₆ _ hi₆ i₆ accessAt s₆ hx₆ _
  cases hx₆
  refine ⟨keeps_of_api_read hi₆, ?_⟩
  intro w₇ _ hi₇ i₇ refreshAt s₇ hx₇ _
  cases hx₇
  refine ⟨keeps_of_api_read hi₇, ?_⟩
  -- the key of the new token
  intro w₈ _ hi₈ i₈ _ s₈ hx₈ _
  cases hx₈
  refine ⟨keeps_of_set hi₈ hid hjti, ?_⟩
  intro w₉ hr₉ _
  refine ⟨_, rfl, ⟨_, _, rfl, hi₆.started⟩, hr₉.fresh _ ?_⟩
  rw [hid]
  exact fresh_of_set hi₈ rfl hjti (.inr ⟨user.orgId, _, rfl, hi₇.started⟩)

/-- The response to the browser. -/
def answer (status : ℕ) (stored : Option Session) : Prog ℕ :=
  .issue (S := sig) (.respond status stored) fun _ => .done status

/-- What a call does, command by command, with the refresh in the middle. -/
theorem handle_eq (session : Session) (path : String) :
    handle mac env session path =
      .issue (S := sig) (.callApi session.accessToken path) fun (status : ℕ) =>
        if status ≠ 401 then answer status none
        else
          .issue .limit fun (limited : Bool) =>
            if limited = true then answer status none
            else
              overApi (refresh mac env session.refreshToken) >>= fun result =>
                match result with
                | .error _ => answer status none
                | .ok pair =>
                  .issue (.callApi pair.accessToken path) fun (status : ℕ) =>
                    answer status (some ⟨pair.accessToken, pair.refreshToken, session.user⟩) := by
  refine congrArg (Program.issue (S := sig) (.callApi session.accessToken path))
    (funext fun status => ?_)
  show ((if status ≠ 401 then _ else _ : Prog (ℕ × Option Session)) >>= _) = _
  split_ifs with hstatus
  · rfl
  · refine congrArg (Program.issue (S := sig) .limit) (funext fun limited => ?_)
    show ((if limited = true then _ else _ : Prog (Option Session)) >>= _) >>= _ = _
    split_ifs with hlimited
    · rfl
    · rw [Program.bind_assoc, Program.bind_assoc]
      refine congrArg _ (funext fun result => ?_)
      cases result with
      | error e => rfl
      | ok pair => rfl

/-- A call that has not used up the token may end with any status but 401. -/
theorem safe_answer_none {status : ℕ} {path : String} (hstatus : status ≠ 401)
    (hnot : ¬Deleted login.jti p w.history) :
    (pact mac env session start signedAt expireAt login).Safe (exec mac env) p
      (Served login p path) (answer status none) w := by
  intro w₁ hr₁ hi₁ i₁ _ s₁ hx₁ _
  cases hx₁
  refine ⟨keeps_of_read hi₁ (fun status x heq => by cases heq), ?_⟩
  intro w₂ hr₂ _
  refine ⟨hstatus, fun hd => absurd ?_ hnot⟩
  rcases deleted_cons.mp (hr₂.deleted hd) with ⟨-, hcmd⟩ | hd
  · cases hcmd
  · exact hr₁.deleted hd

theorem safe_answer_some {status : ℕ} {path : String} {x : Session} (hstatus : status ≠ 401)
    (hx : Fresh mac env start login x.refreshToken w) :
    (pact mac env session start signedAt expireAt login).Safe (exec mac env) p
      (Served login p path) (answer status (some x)) w := by
  intro w₁ hr₁ hi₁ i₁ _ s₁ hx₁ _
  cases hx₁
  refine ⟨keeps_of_respond hi₁ (hr₁.fresh _ hx), ?_⟩
  intro w₂ hr₂ _
  exact ⟨hstatus, fun _ => hr₂.responded (responded_cons.mpr (.inl ⟨status, x, rfl⟩))⟩

/-- The answer to a call reads the store. -/
theorem answers_of_exec {accessToken path : String} {i : Choice} {status : ℕ} {s : Store}
    (hx : exec mac env p (.callApi accessToken path) i w.shared = some (status, s)) :
    answers mac env w.shared.api.clock accessToken status ∧ s = w.shared := by
  simp only [exec, Option.ite_none_right_eq_some, Option.some.injEq, Prod.mk.injEq] at hx
  obtain ⟨hanswers, rfl, rfl⟩ := hx
  exact ⟨hanswers, rfl⟩

/-- A call with the new access token is not answered 401. -/
theorem safe_retry {path accessToken : String} {x : Session}
    (hrenewed : Renewed mac env start login accessToken x.refreshToken w) :
    (pact mac env session start signedAt expireAt login).Safe (exec mac env) p
      (Served login p path)
      (.issue (S := sig) (.callApi accessToken path) fun (status : ℕ) => answer status (some x))
      w := by
  obtain ⟨⟨issuedAt, payload, rfl, hissued⟩, hfresh⟩ := hrenewed
  intro w₁ hr₁ hi₁ i₁ status s₁ hx₁ _
  obtain ⟨hanswers, rfl⟩ := answers_of_exec hx₁
  refine ⟨keeps_of_read hi₁ (fun status x heq => by cases heq), safe_answer_some ?_ ?_⟩
  · rcases hanswers with h429 | h
    · rw [h429]
      decide
    · rwa [verify_issued hissued hi₁.inTime] at h
  · exact (hr₁.fresh _ hfresh).of_redis_eq fun _ _ => rfl

theorem safe_handle {signer : JwtEnv} (hsigner : env.Uses signer.jwtSecret)
    (htoken : session.refreshToken = signRefreshToken mac signer signedAt login)
    (hnamed : login.sub ≠ "") (path : String) (hnot : ¬Deleted login.jti p w.history) :
    (pact mac env session start signedAt expireAt login).Safe (exec mac env) p
      (Served login p path) (handle mac env session path) w := by
  rw [handle_eq]
  intro w₁ hr₁ hi₁ i₁ status s₁ hx₁ _
  obtain ⟨-, rfl⟩ := answers_of_exec hx₁
  refine ⟨keeps_of_read hi₁ (fun status x heq => by cases heq), ?_⟩
  have hnot₁ : ¬Deleted login.jti p (w₁.after ⟨p, .callApi session.accessToken path, status⟩
      w₁.shared).history := by
    intro hd
    rcases deleted_cons.mp hd with ⟨-, hcmd⟩ | hd
    · cases hcmd
    · exact hnot (hr₁.deleted hd)
  by_cases hstatus : status ≠ 401
  · beta_reduce
    rw [if_pos hstatus]
    exact safe_answer_none hstatus hnot₁
  · beta_reduce
    rw [if_neg hstatus]
    intro w₂ _ hi₂ i₂ limited s₂ hx₂ hstep
    obtain rfl : limited = false := hstep
    obtain ⟨-, rfl⟩ := Prod.mk.inj (Option.some.inj hx₂)
    have hkeeps : (pact mac env session start signedAt expireAt login).Keeps (some p) w₂
        (w₂.after ⟨p, .limit, false⟩ w₂.shared) :=
      keeps_of_read hi₂ fun status x heq => by cases heq
    refine ⟨hkeeps, ?_⟩
    beta_reduce
    rw [if_neg Bool.false_ne_true, htoken]
    refine Pact.safe_bind ?_ hkeeps.inv
    refine (safe_refresh hsigner hnamed _).mono fun w₃ result _ hresult => ?_
    obtain ⟨pair, rfl, hrenewed⟩ := hresult
    exact safe_retry hrenewed

theorem fresh_of_tick {d : ℕ} {token : String}
    (htime : InTime start signedAt expireAt (w.shared.api.clock + d))
    (hf : Fresh mac env start login token w) :
    Fresh mac env start login token ⟨{ w.shared with
      api := { w.shared.api with
        clock := w.shared.api.clock + d
        redis := fun key => (w.shared.api.redis key).filter fun entry =>
          w.shared.api.clock + d < entry.expireAt } }, h⟩ := by
  obtain ⟨orgId, jti, issuedAt, expireAt, htoken, hissued, hne, hkey, hexpire⟩ := hf
  refine ⟨orgId, jti, issuedAt, expireAt, htoken, hissued, hne, ?_, hexpire⟩
  -- an access token expires before the key of a refresh token
  have hlt : w.shared.api.clock + d < expireAt := by
    have hseconds := htime.1
    simp only [seconds, accessTokenTtlSeconds] at hseconds
    simp only [refreshTtlSeconds] at hexpire
    omega
  show (w.shared.api.redis (refreshKey jti)).filter _ = _
  rw [hkey]
  simpa using hlt

/-- What the environment does in step. -/
theorem keeps_of_drift {d : Drift} (hi : Inv mac env session start signedAt expireAt login w)
    (hstep : InStep start signedAt expireAt login w (.drift d)) (hx : drift d w.shared = some s) :
    (pact mac env session start signedAt expireAt login).Keeps none w ⟨s, w.history⟩ := by
  cases d with
  | tick d =>
    cases hx
    have htime : InTime start signedAt expireAt (w.shared.api.clock + d) := hstep
    refine ⟨⟨?_, htime, hi.drawn, fun hg => ?_, hi.account, hi.keyed, ?_⟩,
      fun q _ => ⟨id, fun token => fresh_of_tick htime, id⟩⟩
    · have hstarted := hi.started
      show start ≤ w.shared.api.clock + d
      omega
    · show (w.shared.api.redis (refreshKey login.jti)).filter _ = _
      rw [hi.held hg]
      simpa using htime.2.2
    · exact hi.kept.imp id (fresh_of_tick htime)
  | setUser id user =>
    cases hx
    obtain ⟨hstays, hid⟩ := hstep
    refine ⟨⟨hi.started, hi.inTime, hi.drawn, hi.held, ?_, ?_, hi.kept⟩,
      fun q _ => ⟨fun hd => hd, fun token hf => hf, fun hr => hr⟩⟩
    · show Function.update w.shared.api.users id user login.sub ≠ none
      by_cases heq : login.sub = id
      · subst heq
        rw [Function.update_self]
        exact hstays rfl
      · rw [Function.update_of_ne heq]
        exact hi.account
    · intro other u hu
      by_cases heq : other = id
      · subst heq
        exact hid u ((Function.update_self other user w.shared.api.users).symm.trans hu)
      · exact hi.keyed other u ((Function.update_of_ne heq user w.shared.api.users).symm.trans hu)

theorem complies {signer : JwtEnv} (hsigner : env.Uses signer.jwtSecret)
    (htoken : session.refreshToken = signRefreshToken mac signer signedAt login)
    (hnamed : login.sub ≠ "") :
    Pact.Complies (pact mac env session start signedAt expireAt login) (dashboard mac env session)
      (Served login) where
  code p path w _ hfresh := by
    refine safe_handle hsigner htoken hnamed path ?_
    rintro ⟨e, he, hpid, -⟩
    exact hfresh e he hpid
  drift _ _ _ := keeps_of_drift

/-! ## What a later refresh accepts -/

theorem runs_command {α : Type} {c : Refresh.sig.Cmd}
    {f : Refresh.sig.Ans c → Handler Refresh.sig Thrown α} {s s' s'' : Refresh.Store}
    {result : Except Thrown α} (r : Refresh.sig.Ans c) (hc : Answers s c r s')
    (hk : (f r).Runs Answers s' result s'') : (command c >>= f).Runs Answers s result s'' :=
  Program.Runs.issue hc hk

theorem runs_issueTokenPair (mac : IdealMac) (env : JwtEnv) (s : Refresh.Store) (user : User) :
    ∃ pair s', (issueTokenPair mac env user.id user.orgId user.role).Runs Answers s (.ok pair)
      s' := by
  obtain ⟨jti, hjti⟩ := Infinite.exists_notMem_finset s.uuids.toFinset
  rw [List.mem_toFinset] at hjti
  have hdraw : Answers s .randomUUID jti { s with uuids := jti :: s.uuids } :=
    ⟨0, jti, if_neg hjti⟩
  exact ⟨_, _, runs_command jti hdraw (runs_command s.clock ⟨0, "", rfl⟩
    (runs_command s.clock ⟨0, "", rfl⟩ (runs_command () ⟨0, "", rfl⟩ (.done _ _))))⟩

/-- What `refresh` asks of its store. -/
theorem accepts_of_stored {s : Refresh.Store} {token : String} {payload : RefreshTokenPayload}
    {expireAt : ℤ} (hverify : verifyRefreshToken mac env s.clock token = .ok (.refresh payload))
    (hkey : s.redis (refreshKey payload.jti) = some ⟨payload.sub, expireAt⟩)
    (hnamed : payload.sub ≠ "") (haccount : s.users payload.sub ≠ none) :
    Accepts mac env s token := by
  obtain ⟨user, huser⟩ := Option.ne_none_iff_exists'.mp haccount
  have hpasses : ¬(some payload.sub ≠ some (subOf (.refresh payload)) ∨
      some payload.sub = some "") := by
    rintro (hne | hempty)
    · exact hne rfl
    · exact hnamed (Option.some.inj hempty)
  obtain ⟨pair, s', hissued⟩ := runs_issueTokenPair mac env
    (s.set (refreshKey payload.jti) none) user
  have hget : Answers s (.redisGet (refreshKey payload.jti)) (some payload.sub) s := by
    refine ⟨0, "", ?_⟩
    show some ((s.redis (refreshKey payload.jti)).map Entry.value, s) = _
    rw [hkey]
    rfl
  refine ⟨pair, s', ?_⟩
  rw [refresh]
  refine runs_command s.clock ⟨0, "", rfl⟩ ?_
  dsimp only
  rw [hverify]
  refine runs_command (some payload.sub) hget ?_
  rw [if_neg hpasses]
  refine runs_command _ ⟨0, "", rfl⟩ ?_
  refine runs_command (some user) ⟨0, "", ?_⟩ hissued
  show some (s.users payload.sub, _) = _
  rw [huser]
  rfl

theorem accepts_of_fresh {token : String}
    (hi : Inv mac env session start signedAt expireAt login w) (hnamed : login.sub ≠ "")
    (hf : Fresh mac env start login token w) : Accepts mac env w.shared.api token := by
  obtain ⟨orgId, jti, issuedAt, expireAt, rfl, hissued, -, hkey, -⟩ := hf
  suffices hverify : verifyRefreshToken mac env w.shared.api.clock _ =
      .ok (.refresh ⟨login.sub, orgId, jti⟩) from
    accepts_of_stored hverify hkey hnamed hi.account
  refine verifyWithRotation_eq_ok.mpr ⟨_, openText_sign _, .inl rfl, ?_, rfl⟩
  have hlt := hi.inTime.1
  have hmono := seconds_mono hissued
  show seconds w.shared.api.clock < seconds issuedAt + refreshTokenTtlSeconds
  simp only [accessTokenTtlSeconds] at hlt
  simp only [refreshTokenTtlSeconds]
  omega

/-- When the calls have been answered and the key has been deleted, the deleting call has set its
session. -/
theorem responded_of_gone {c : DashConfig}
    (hc : Pact.Secured (pact mac env session start signedAt expireAt login)
      (dashboard mac env session) (Served login) c)
    (hdone : ∀ p P, c.procs p = some P → ∃ status, P.prog = .done status)
    (hgone : Gone login.jti c.world.history) : Responded c.world.history := by
  obtain ⟨e, he, hcmd⟩ := hgone
  cases hp : c.procs e.pid with
  | none => exact absurd rfl (hc.fresh e.pid hp e he)
  | some P =>
    obtain ⟨status, hprog⟩ := hdone e.pid P hp
    exact (hc.result hp hprog).2 ⟨e, he, rfl, hcmd⟩

theorem inv_init (hs : LoggedIn mac env session signedAt expireAt login s) :
    Inv mac env session s.api.clock signedAt expireAt login ⟨s, []⟩ where
  started := le_rfl
  inTime := ⟨by simp [accessTokenTtlSeconds], hs.valid, hs.unexpired⟩
  drawn := hs.drawn
  held _ := hs.unrevoked
  account := hs.account
  keyed := hs.keyed
  kept := .inl ⟨hs.kept, by simp [Responded]⟩

end Pact

/-- In every run in which each call looks for the key of the login before any call deletes it, no
call is answered 401 and the session that is kept can be refreshed. -/
theorem survives_of_inStep (mac : IdealMac) (env : JwtEnv) (session : Session)
    (signedAt expireAt : ℤ) (login : RefreshTokenPayload) (s : Store) (ls : List DashLabel)
    (c : DashConfig) (hs : LoggedIn mac env session signedAt expireAt login s)
    (hrun : (dashboard mac env session).run (.init s) ls = some c)
    (hal : (dashboard mac env session).Along
      (fun c => InStep s.api.clock signedAt expireAt login c.world) (.init s) ls) :
    Survives mac env c := by
  obtain ⟨signer, hsigner, htoken⟩ := hs.token
  have hc : Pact.Secured (pact mac env session s.api.clock signedAt expireAt login)
      (dashboard mac env session) (Served login) c :=
    Pact.secured_run (complies hsigner htoken hs.named) (inv_init hs) hrun hal
  refine ⟨fun p P hp hprog => (hc.result hp hprog).1 rfl, fun hdone => ?_⟩
  have hi : Inv mac env session s.api.clock signedAt expireAt login c.world := hc.inv
  rcases hi.kept with ⟨hkept, hnot⟩ | hfresh
  · -- nobody has set a session, so nobody has deleted the key
    have hgone : ¬Gone login.jti c.world.history := fun hgone =>
      hnot (responded_of_gone hc hdone hgone)
    rw [hkept, htoken]
    exact accepts_of_stored (verify_login hsigner hi) (hi.held hgone) hs.named hi.account
  · exact accepts_of_fresh hi hs.named hfresh

section Decidable

variable {start signedAt expireAt : ℤ} {login : RefreshTokenPayload}

instance (jti : String) (h : List DashEvent) : Decidable (Gone jti h) :=
  inferInstanceAs (Decidable (∃ e ∈ h, _ = _))

instance (now : ℤ) : Decidable (InTime start signedAt expireAt now) :=
  inferInstanceAs (Decidable (_ ∧ _ ∧ _))

instance (w : DashWorld) :
    (a : Action sig Pid Drift String) → Decidable (InStep start signedAt expireAt login w a)
  | .command ⟨_, .api (.redisGet key), _⟩ =>
    inferInstanceAs (Decidable (key = refreshKey login.jti → ¬Gone login.jti w.history))
  | .command ⟨_, .limit, limited⟩ => inferInstanceAs (Decidable (limited = false))
  | .drift (.tick d) =>
    inferInstanceAs (Decidable (InTime start signedAt expireAt (w.shared.api.clock + d)))
  | .drift (.setUser id user) =>
    inferInstanceAs (Decidable ((id = login.sub → user ≠ none) ∧ ∀ u ∈ user, u.id = id))
  | .command ⟨_, .api .dateNow, _⟩ | .command ⟨_, .api (.redisSet ..), _⟩
  | .command ⟨_, .api (.redisDel _), _⟩ | .command ⟨_, .api (.findUser _), _⟩
  | .command ⟨_, .api .randomUUID, _⟩ | .command ⟨_, .callApi .., _⟩
  | .command ⟨_, .respond .., _⟩ | .start .. => isTrue trivial

end Decidable

/-- The MAC with other times for the times, so that an old token has a short text. -/
def renamed (mac : IdealMac) (rename : Equiv.Perm ℤ) : IdealMac where
  sign s := mac.sign { s with iat := rename s.iat }
  openText text := (mac.openText text).map fun s => { s with iat := rename.symm s.iat }
  openText_eq_some {text s} := by
    rw [Option.map_eq_some_iff]
    constructor
    · rintro ⟨s', hopen, rfl⟩
      rw [← mac.openText_eq_some.mp hopen, Equiv.apply_symm_apply]
    · rintro rfl
      exact ⟨_, openText_sign _, by rw [Equiv.symm_apply_apply]⟩

def demoMac : IdealMac := renamed fieldsMac (Equiv.swap (-1000) 1)

def dashboardEnv : JwtEnv := ⟨"s", none⟩

def demoLogin : RefreshTokenPayload := ⟨"u", "o", "a"⟩

/-- The session of a login at 0, with an access token that has expired by then. -/
def demoSession : Session where
  accessToken := signAccessToken demoMac dashboardEnv (-1000000) ⟨"u", "o", "OWNER"⟩
  refreshToken := signRefreshToken demoMac dashboardEnv 0 demoLogin
  user := ⟨"u", "u@o", "OWNER", "o"⟩

def demoDashboard : Store where
  api := {
    clock := 0
    redis := fun key => if key = refreshKey "a" then some ⟨"u", 604800000⟩ else none
    users := fun id => if id = "u" then some ⟨"u", "o", "OWNER"⟩ else none
    uuids := ["a"] }
  cookie := demoSession

/-- A call of `p` up to the check of the key. -/
def checkCall (p : Pid) : List DashLabel :=
  [.start p "/v1/jobs", .step p ⟨"", 401⟩, .step p ⟨"", 200⟩, .step p ⟨"", 200⟩, .step p ⟨"", 200⟩]

/-- The rest of a call that passes the check. -/
def rotateCall (p : Pid) (jti : String) : List DashLabel :=
  List.replicate 8 (.step p ⟨jti, 200⟩)

def statuses (c : DashConfig) : List (Option ℕ) :=
  [0, 1].map fun p => (c.procs p).bind fun P => P.prog.returned

theorem loggedIn_demo : LoggedIn demoMac dashboardEnv demoSession 0 604800000 demoLogin
    demoDashboard where
  token := ⟨dashboardEnv, .inl rfl, rfl⟩
  valid := by decide
  drawn := by decide
  unrevoked := by
    show (if refreshKey demoLogin.jti = refreshKey "a" then some _ else none) = _
    exact if_pos rfl
  unexpired := by decide
  named := by decide
  account := by decide
  keyed id user huser := by
    simp only [demoDashboard, Option.ite_none_right_eq_some, Option.some.injEq] at huser
    obtain ⟨rfl, rfl⟩ := huser
    rfl
  kept := rfl

/-- Two calls that both check the key before either deletes it. -/
theorem survives_of_inStep_pair : ∃ c,
    (dashboard demoMac dashboardEnv demoSession).run (.init demoDashboard)
      (checkCall 0 ++ checkCall 1 ++ rotateCall 0 "b" ++ rotateCall 1 "c") = some c ∧
      Survives demoMac dashboardEnv c ∧ statuses c = [some 200, some 200] := by
  have hrun : ((dashboard demoMac dashboardEnv demoSession).run (.init demoDashboard)
      (checkCall 0 ++ checkCall 1 ++ rotateCall 0 "b" ++ rotateCall 1 "c")).map statuses =
      some [some 200, some 200] := by decide
  obtain ⟨c, hc, hstatuses⟩ := Option.map_eq_some_iff.mp hrun
  exact ⟨c, hc, survives_of_inStep demoMac dashboardEnv demoSession 0 604800000 demoLogin
    demoDashboard _ c loggedIn_demo hc (by decide), hstatuses⟩

/-- Call 1 looks for the key after call 0 has deleted it, and is answered 401. -/
theorem survives_fails : ¬∀ (mac : IdealMac) (env : JwtEnv) (session : Session)
    (signedAt expireAt : ℤ) (login : RefreshTokenPayload) (s : Store) (ls : List DashLabel)
    (c : DashConfig), LoggedIn mac env session signedAt expireAt login s →
      (∀ payload, verifyAccessToken mac env s.api.clock session.accessToken ≠ .ok payload) →
      (∀ e, Label.drift e ∉ ls) →
      (dashboard mac env session).run (.init s) ls = some c → Survives mac env c := by
  intro h
  have hrun : ((dashboard demoMac dashboardEnv demoSession).run (.init demoDashboard)
      (checkCall 0 ++ rotateCall 0 "b" ++ checkCall 1 ++ [.step 1 ⟨"", 200⟩])).map statuses =
      some [some 200, some 401] := by decide
  obtain ⟨c, hc, hstatuses⟩ := Option.map_eq_some_iff.mp hrun
  have hexpired : ∀ payload,
      verifyAccessToken demoMac dashboardEnv 0 demoSession.accessToken ≠ .ok payload := by
    have herror : verifyAccessToken demoMac dashboardEnv 0 demoSession.accessToken =
        .error "jwt expired" := by decide
    intro payload
    rw [herror]
    exact fun hok => by cases hok
  have hsurvives := h demoMac dashboardEnv demoSession 0 604800000 demoLogin demoDashboard _
    c loggedIn_demo hexpired (by simp [checkCall, rotateCall]) hc
  cases hp : c.procs 1 with
  | none => simp [statuses, hp] at hstatuses
  | some P =>
    cases hprog : P.prog with
    | issue cmd k => simp [statuses, hp, hprog, Program.returned] at hstatuses
    | done status =>
      obtain rfl : status = 401 := by
        simp only [statuses, List.map_cons, List.map_nil, hp, hprog, Option.bind_some,
          Program.returned, List.cons.injEq, Option.some.injEq, and_true] at hstatuses
        exact hstatuses.2
      exact hsurvives.answered 1 P hp hprog

end CloudMesh.Auth.Dashboard
