import CloudMesh.Errors
import CloudMesh.Text
import Mathlib.Data.Int.Basic
import Mathlib.Logic.Function.Basic
import Mathlib.Logic.Equiv.Nat
import Mathlib.Tactic.Tauto

/-!
# Access and refresh tokens

`apps/api/src/lib/jwt.ts` and `middleware/requireJwt.ts` over an ideal MAC: a token is the text of
what was signed, no other text verifies, and different contents have different texts. Both kinds of
token are signed with the same secret and nothing in the verification looks at the payload, so an
access check accepts every unexpired refresh token, rotated or not.

## Main definitions

- `IdealMac` — `jsonwebtoken` with HS256
- `verifyAccessToken`, `requireJwt` — the access check
- `IssuedAccess`, `IssuedRefresh` — unexpired tokens of either kind
-/

namespace CloudMesh.Auth

structure AccessTokenPayload where
  sub : String
  orgId : String
  role : String
  deriving DecidableEq, Repr

structure RefreshTokenPayload where
  sub : String
  orgId : String
  jti : String
  deriving DecidableEq, Repr

/-- The payload objects that are signed; the two kinds have different fields. -/
inductive Payload
  | access (payload : AccessTokenPayload)
  | refresh (payload : RefreshTokenPayload)
  deriving DecidableEq, Repr

def accessTokenTtlSeconds : ℤ := 15 * 60

def refreshTokenTtlSeconds : ℤ := 60 * 60 * 24 * 7

/-- What a token signs: the payload with `iat`, in seconds, under a secret. -/
structure Signed where
  secret : String
  payload : Payload
  iat : ℤ
  deriving DecidableEq, Repr

/-- The `exp` that the signer of the payload's kind adds. -/
def Signed.exp (s : Signed) : ℤ :=
  s.iat + match s.payload with
    | .access _ => accessTokenTtlSeconds
    | .refresh _ => refreshTokenTtlSeconds

/-- The texts of signed contents. Only the text that signing produced can be opened. -/
structure IdealMac where
  sign : Signed → String
  openText : String → Option Signed
  openText_eq_some : ∀ {text s}, openText text = some s ↔ sign s = text

structure JwtEnv where
  jwtSecret : String
  jwtSecretPrevious : Option String

/-- `Math.floor(Date.now() / 1000)`. -/
def seconds (now : ℤ) : ℤ := now / 1000

section Code

variable (mac : IdealMac) (env : JwtEnv) (now : ℤ)

def signAccessToken (payload : AccessTokenPayload) : String :=
  mac.sign ⟨env.jwtSecret, .access payload, seconds now⟩

def signRefreshToken (payload : RefreshTokenPayload) : String :=
  mac.sign ⟨env.jwtSecret, .refresh payload, seconds now⟩

/-- `jwt.verify`. -/
def verify (token secret : String) : Except String Payload :=
  match mac.openText token with
  | none => .error "invalid token"
  | some s =>
    if s.secret ≠ secret then .error "invalid signature"
    else if s.exp ≤ seconds now then .error "jwt expired"
    else .ok s.payload

/-- The current secret, and the previous one during a rotation window. The error is the message of
the `InvalidTokenError`. -/
def verifyWithRotation (token : String) : Except String Payload :=
  match verify mac now token env.jwtSecret with
  | .ok payload => .ok payload
  | .error firstErr =>
    match env.jwtSecretPrevious with
    | none => .error firstErr
    | some previous =>
      match verify mac now token previous with
      | .ok payload => .ok payload
      | .error _ => .error firstErr

/-- The result is typed as an access payload in the source, by a cast. -/
def verifyAccessToken (token : String) : Except String Payload :=
  verifyWithRotation mac env now token

def verifyRefreshToken (token : String) : Except String Payload :=
  verifyWithRotation mac env now token

/-- The token of an `Authorization` header, if it is well formed. -/
def bearerToken (header : Option String) : Option String :=
  match header with
  | none => none
  | some header =>
    if "Bearer ".toList.isPrefixOf header.toList then
      let token := trim (header.toList.drop "Bearer ".length)
      if token = [] then none else some (String.ofList token)
    else none

/-- The user that the request gets, or the error. -/
def requireJwt (header : Option String) : Except AppError Payload :=
  match bearerToken header with
  | none => .error (unauthorizedError "Missing or malformed Authorization header")
  | some token =>
    match verifyAccessToken mac env now token with
    | .ok user => .ok user
    | .error _ => .error (unauthorizedError "Invalid or expired token")

end Code

/-! ## What is accepted -/

/-- The secrets that verification tries. -/
def JwtEnv.Uses (env : JwtEnv) (secret : String) : Prop :=
  secret = env.jwtSecret ∨ env.jwtSecretPrevious = some secret

/-- `signAccessToken` produced the token, under a secret that verification tries, and it has not
expired. -/
def IssuedAccess (mac : IdealMac) (env : JwtEnv) (now : ℤ) (token : String) : Prop :=
  ∃ signer payload signedAt, env.Uses signer.jwtSecret ∧
    token = signAccessToken mac signer signedAt payload ∧
    seconds now < seconds signedAt + accessTokenTtlSeconds

/-- `signRefreshToken` produced the token, under a secret that verification tries, and it has not
expired. -/
def IssuedRefresh (mac : IdealMac) (env : JwtEnv) (now : ℤ) (token : String) : Prop :=
  ∃ signer payload signedAt, env.Uses signer.jwtSecret ∧
    token = signRefreshToken mac signer signedAt payload ∧
    seconds now < seconds signedAt + refreshTokenTtlSeconds

/-- The token opens to a content that verification takes. -/
def Live (mac : IdealMac) (env : JwtEnv) (now : ℤ) (token : String) (payload : Payload) : Prop :=
  ∃ s, mac.openText token = some s ∧ env.Uses s.secret ∧ seconds now < s.exp ∧ s.payload = payload

section Accepted

variable {mac : IdealMac} {env : JwtEnv} {now : ℤ} {token : String} {payload : Payload}

@[simp] theorem openText_sign (s : Signed) : mac.openText (mac.sign s) = some s :=
  mac.openText_eq_some.mpr rfl

theorem verify_eq_ok {secret : String} : verify mac now token secret = .ok payload ↔
    ∃ s, mac.openText token = some s ∧ s.secret = secret ∧ seconds now < s.exp ∧
      s.payload = payload := by
  unfold verify
  cases ho : mac.openText token with
  | none => simp
  | some s =>
    by_cases hsecret : s.secret = secret
    · by_cases hexp : s.exp ≤ seconds now
      · simp [hsecret, hexp]
      · simp [hsecret, hexp, not_le.mp hexp]
    · simp [hsecret]

theorem live_iff_verify : Live mac env now token payload ↔
    verify mac now token env.jwtSecret = .ok payload ∨
      ∃ previous, env.jwtSecretPrevious = some previous ∧
        verify mac now token previous = .ok payload := by
  simp only [Live, verify_eq_ok, JwtEnv.Uses]
  constructor
  · rintro ⟨s, ho, hs | hs, hexp, hp⟩
    · exact .inl ⟨s, ho, hs, hexp, hp⟩
    · exact .inr ⟨s.secret, hs, s, ho, rfl, hexp, hp⟩
  · rintro (⟨s, ho, hs, hexp, hp⟩ | ⟨previous, hprev, s, ho, hs, hexp, hp⟩)
    · exact ⟨s, ho, .inl hs, hexp, hp⟩
    · exact ⟨s, ho, .inr (hs ▸ hprev), hexp, hp⟩

theorem Live.unique {payload' : Payload} (h : Live mac env now token payload)
    (h' : Live mac env now token payload') : payload = payload' := by
  obtain ⟨s, ho, -, -, hp⟩ := h
  obtain ⟨s', ho', -, -, hp'⟩ := h'
  obtain rfl := Option.some.inj (ho.symm.trans ho')
  exact hp.symm.trans hp'

theorem verifyWithRotation_eq_ok :
    verifyWithRotation mac env now token = .ok payload ↔ Live mac env now token payload := by
  unfold verifyWithRotation
  cases hcur : verify mac now token env.jwtSecret with
  | ok current =>
    have hlive : Live mac env now token current := live_iff_verify.mpr (.inl hcur)
    exact ⟨fun h => by cases h; exact hlive, fun h => congrArg Except.ok (hlive.unique h)⟩
  | error firstErr =>
    cases hprev : env.jwtSecretPrevious with
    | none => simp [live_iff_verify, hcur, hprev]
    | some previous =>
      cases hold : verify mac now token previous with
      | ok old =>
        have hlive : Live mac env now token old :=
          live_iff_verify.mpr (.inr ⟨previous, hprev, hold⟩)
        simp only [hold]
        exact ⟨fun h => by cases h; exact hlive, fun h => congrArg Except.ok (hlive.unique h)⟩
      | error _ => simp [live_iff_verify, hcur, hprev, hold]

/-- A live token was signed at some time, under a secret that verification tries. -/
theorem live_iff_signed : Live mac env now token payload ↔
    ∃ secret signedAt, env.Uses secret ∧ token = mac.sign ⟨secret, payload, seconds signedAt⟩ ∧
      seconds now < Signed.exp ⟨secret, payload, seconds signedAt⟩ := by
  constructor
  · rintro ⟨⟨secret, payload, iat⟩, ho, hs, hexp, rfl⟩
    have hiat : seconds (iat * 1000) = iat := by simp [seconds]
    refine ⟨secret, iat * 1000, hs, ?_, ?_⟩
    · rw [hiat]
      exact (mac.openText_eq_some.mp ho).symm
    · rw [hiat]
      exact hexp
  · rintro ⟨secret, signedAt, hs, rfl, hexp⟩
    exact ⟨_, openText_sign _, hs, hexp, rfl⟩

/-- What opens to an access payload was produced by `signAccessToken`. -/
theorem issuedAccess_iff :
    IssuedAccess mac env now token ↔ ∃ payload, Live mac env now token (.access payload) := by
  constructor
  · rintro ⟨signer, payload, signedAt, hs, rfl, hexp⟩
    exact ⟨payload, live_iff_signed.mpr ⟨_, _, hs, rfl, hexp⟩⟩
  · rintro ⟨payload, h⟩
    obtain ⟨secret, signedAt, hs, rfl, hexp⟩ := live_iff_signed.mp h
    exact ⟨⟨secret, none⟩, payload, signedAt, hs, rfl, hexp⟩

theorem issuedRefresh_iff :
    IssuedRefresh mac env now token ↔ ∃ payload, Live mac env now token (.refresh payload) := by
  constructor
  · rintro ⟨signer, payload, signedAt, hs, rfl, hexp⟩
    exact ⟨payload, live_iff_signed.mpr ⟨_, _, hs, rfl, hexp⟩⟩
  · rintro ⟨payload, h⟩
    obtain ⟨secret, signedAt, hs, rfl, hexp⟩ := live_iff_signed.mp h
    exact ⟨⟨secret, none⟩, payload, signedAt, hs, rfl, hexp⟩

/-- The access check takes the unexpired tokens of both kinds. -/
theorem verifyAccessToken_ok_iff : (∃ payload, verifyAccessToken mac env now token = .ok payload) ↔
    IssuedAccess mac env now token ∨ IssuedRefresh mac env now token := by
  simp only [verifyAccessToken, verifyWithRotation_eq_ok, issuedAccess_iff, issuedRefresh_iff]
  constructor
  · rintro ⟨payload | payload, h⟩
    · exact .inl ⟨payload, h⟩
    · exact .inr ⟨payload, h⟩
  · rintro (⟨payload, h⟩ | ⟨payload, h⟩)
    · exact ⟨_, h⟩
    · exact ⟨_, h⟩

theorem not_issuedAccess_of_issuedRefresh (h : IssuedRefresh mac env now token) :
    ¬IssuedAccess mac env now token := by
  intro ha
  obtain ⟨access, ha⟩ := issuedAccess_iff.mp ha
  obtain ⟨refresh, hr⟩ := issuedRefresh_iff.mp h
  exact absurd (ha.unique hr) (by simp)

theorem requireJwt_ok_iff {header : Option String} :
    (∃ user, requireJwt mac env now header = .ok user) ↔ ∃ token, bearerToken header = some token ∧
      ∃ payload, verifyAccessToken mac env now token = .ok payload := by
  unfold requireJwt
  cases bearerToken header with
  | none => simp
  | some token => cases hv : verifyAccessToken mac env now token <;> simp [hv]

end Accepted

/-- The access checks take a token exactly if it is an access token, unless it is a refresh
token. -/
theorem access_check_exact_iff (mac : IdealMac) (env : JwtEnv) (now : ℤ) :
    (∀ token, ((∃ payload, verifyAccessToken mac env now token = .ok payload) ↔
      IssuedAccess mac env now token) ↔ ¬IssuedRefresh mac env now token) ∧
    ∀ header, ((∃ user, requireJwt mac env now header = .ok user) ↔
      ∃ token, bearerToken header = some token ∧ IssuedAccess mac env now token) ↔
        ¬∃ token, bearerToken header = some token ∧ IssuedRefresh mac env now token := by
  have htoken : ∀ token, ((∃ payload, verifyAccessToken mac env now token = .ok payload) ↔
      IssuedAccess mac env now token) ↔ ¬IssuedRefresh mac env now token := by
    intro token
    have hexcl := @not_issuedAccess_of_issuedRefresh mac env now token
    rw [verifyAccessToken_ok_iff]
    tauto
  refine ⟨htoken, fun header => ?_⟩
  rw [requireJwt_ok_iff]
  cases bearerToken header with
  | none => simp
  | some token => simpa using htoken token

/-! ## A refresh token is accepted -/

/-- A text that can be read back from what follows it: each character after a dot, then a bar. -/
def encodeField : List Char → List Char
  | [] => ['|']
  | c :: s => '.' :: c :: encodeField s

def decodeField : List Char → Option (String × List Char)
  | '.' :: c :: r => (decodeField r).map fun (s, r') => (String.ofList (c :: s.toList), r')
  | '|' :: r => some ("", r)
  | _ => none

theorem decodeField_encodeField (s r : List Char) :
    decodeField (encodeField s ++ r) = some (String.ofList s, r) := by
  induction s with
  | nil => rfl
  | cons c s ih => simp [encodeField, decodeField, ih]

/-- The secret, the kind of the payload and its fields, and as many marks as the number of `iat`. -/
def encodeSigned (s : Signed) : List Char :=
  let (kind, sub, orgId, third) := match s.payload with
    | .access p => ("access", p.sub, p.orgId, p.role)
    | .refresh p => ("refresh", p.sub, p.orgId, p.jti)
  encodeField s.secret.toList ++ (encodeField kind.toList ++ (encodeField sub.toList ++
    (encodeField orgId.toList ++ (encodeField third.toList ++
      List.replicate (Equiv.intEquivNat s.iat) '.'))))

def decodeSigned (text : List Char) : Option Signed := do
  let (secret, r) ← decodeField text
  let (kind, r) ← decodeField r
  let (sub, r) ← decodeField r
  let (orgId, r) ← decodeField r
  let (third, r) ← decodeField r
  let payload := if kind = "access" then Payload.access ⟨sub, orgId, third⟩
    else .refresh ⟨sub, orgId, third⟩
  some ⟨secret, payload, Equiv.intEquivNat.symm r.length⟩

theorem decodeSigned_encodeSigned (s : Signed) : decodeSigned (encodeSigned s) = some s := by
  obtain ⟨secret, payload, iat⟩ := s
  cases payload with
  | access p =>
    simp only [encodeSigned, decodeSigned, decodeField_encodeField, Option.bind_eq_bind,
      Option.bind_some, String.ofList_toList, List.length_replicate, Equiv.symm_apply_apply,
      if_true]
  | refresh p =>
    have hkind : "refresh" ≠ "access" := by decide
    simp only [encodeSigned, decodeSigned, decodeField_encodeField, Option.bind_eq_bind,
      Option.bind_some, String.ofList_toList, List.length_replicate, Equiv.symm_apply_apply,
      if_neg hkind]

/-- A MAC whose texts list the signed fields. -/
def fieldsMac : IdealMac where
  sign s := String.ofList (encodeSigned s)
  openText text := (decodeSigned text.toList).filter fun s => String.ofList (encodeSigned s) = text
  openText_eq_some {text s} := by
    simp only [Option.filter_eq_some_iff, decide_eq_true_eq]
    refine and_iff_right_of_imp ?_
    rintro rfl
    rw [String.toList_ofList, decodeSigned_encodeSigned]

/-- A refresh token signed at 0 passes the access checks at 0; `requireJwt` makes its payload the
user. -/
theorem access_check_exact_fails : ¬∀ (mac : IdealMac) (env : JwtEnv) (now : ℤ) (token : String),
    (∃ payload, verifyAccessToken mac env now token = .ok payload) ↔
      IssuedAccess mac env now token := by
  intro h
  let env : JwtEnv := ⟨"0123456789abcdef0123456789abcdef", none⟩
  let token := signRefreshToken fieldsMac env 0 ⟨"user", "org", "jti"⟩
  have hrefresh : IssuedRefresh fieldsMac env 0 token :=
    ⟨env, ⟨"user", "org", "jti"⟩, 0, .inl rfl, rfl, by decide⟩
  exact not_issuedAccess_of_issuedRefresh hrefresh
    ((h fieldsMac env 0 token).mp (verifyAccessToken_ok_iff.mpr (.inr hrefresh)))

end CloudMesh.Auth
