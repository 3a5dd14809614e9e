import CloudMesh.Auth.SessionCrypto
import CloudMesh.JsonReads

/-!
# The session in the cookie

`lib/session.ts` of the dashboard, over `sessionCrypto.ts`: what `setSession` has stored is what
`getSession` returns, and whatever a browser sends, what is returned has been stored.

## Main definitions

- `setSession`, `getSession` — the code
- `SetCall` — a call of `setSession`
- `Faithful` — what is returned of what has been stored
- `faithful_getSession` — after any calls, under any secrets
-/

namespace CloudMesh.Auth.SessionCrypto

open Streams

/-! ## `session.ts` -/

structure User where
  id : String
  email : String
  role : String
  orgId : String

structure Session where
  accessToken : String
  refreshToken : String
  user : User

/-- `JSON.stringify(session)`. -/
def Session.text (session : Session) : String :=
  String.ofList (Json.objectText [("accessToken", (quote session.accessToken).toList),
    ("refreshToken", (quote session.refreshToken).toList),
    ("user", Json.objectText [("id", (quote session.user.id).toList),
      ("email", (quote session.user.email).toList), ("role", (quote session.user.role).toList),
      ("orgId", (quote session.user.orgId).toList)])])

/-- The object that a session is. -/
def Session.value (session : Session) : Json :=
  .object [(utf16 "accessToken", .string (utf16 session.accessToken)),
    (utf16 "refreshToken", .string (utf16 session.refreshToken)),
    (utf16 "user", .object [(utf16 "id", .string (utf16 session.user.id)),
      (utf16 "email", .string (utf16 session.user.email)),
      (utf16 "role", .string (utf16 session.user.role)),
      (utf16 "orgId", .string (utf16 session.user.orgId))])]

section Code

variable (gcm : Gcm) (sha256 : List UInt8 → Key)

/-- The value of the cookie. -/
def setSession (sessionSecret : Option String) (iv : Iv) (session : Session) :
    Except Thrown JsString :=
  encryptSession gcm sha256 sessionSecret iv session.text

/-- The cookie is what the browser has sent. A text that is no JSON is no session. -/
def getSession (records : List Sealed) (sessionSecret : Option String)
    (cookie : Option JsString) : Except Thrown (Option Json) :=
  match cookie.filter (· ≠ []) with
  | none => pure none
  | some raw => do
    let plaintext ← decryptSession gcm sha256 records sessionSecret raw
    match plaintext.filter (· ≠ "") with
    | none => pure none
    | some plaintext => pure (Json.parse plaintext.toList)

end Code

/-! ## What is returned of what has been stored -/

/-- A call of `setSession`. -/
structure SetCall where
  sessionSecret : Option String
  iv : Iv
  session : Session

def SetCall.encrypted (call : SetCall) : Call :=
  ⟨call.sessionSecret, call.iv, call.session.text⟩

/-- What the cipher knows after the calls. -/
def stored (sha256 : List UInt8 → Key) (calls : List SetCall) : List Sealed :=
  log sha256 (calls.map SetCall.encrypted)

/-- The session of a call is returned for its cookie under its secret, whatever has been stored
before and after; what is returned for a cookie has been stored by some call, under a secret with
the same key; and no cookie makes `getSession` throw. -/
structure Faithful (gcm : Gcm) (sha256 : List UInt8 → Key) (calls : List SetCall) : Prop where
  returned : ∀ call ∈ calls, ∀ cookie,
    setSession gcm sha256 call.sessionSecret call.iv call.session = .ok cookie →
      getSession gcm sha256 (stored sha256 calls) call.sessionSecret (some cookie) =
        .ok (some call.session.value)
  authentic : ∀ secret cookie value,
    getSession gcm sha256 (stored sha256 calls) secret cookie = .ok (some value) →
      ∃ call ∈ calls, call.session.value = value ∧
        ∃ key, getKey sha256 secret = .ok key ∧ getKey sha256 call.sessionSecret = .ok key
  total : ∀ secret cookie,
    ∃ result, getSession gcm sha256 (stored sha256 calls) secret cookie = .ok result

/-- Two sessions are not one object. -/
theorem value_injective : Function.Injective Session.value := by
  rintro ⟨access, refresh, id, email, role, orgId⟩ ⟨access', refresh', id', email', role', orgId'⟩ h
  simp only [Session.value, Json.object.injEq, List.cons.injEq, Prod.mk.injEq, Json.string.injEq,
    true_and, and_true] at h
  obtain ⟨haccess, hrefresh, hid, hemail, hrole, horg⟩ := h
  rw [utf16_injective haccess, utf16_injective hrefresh, utf16_injective hid,
    utf16_injective hemail, utf16_injective hrole, utf16_injective horg]

theorem parse_text (session : Session) :
    Json.parse session.text.toList = some session.value := by
  rw [Session.text, String.toList_ofList]
  apply Json.parse_objectText
  · refine .cons (Json.isMember_quote _ _) (.cons (Json.isMember_quote _ _)
      (.cons (Json.isMember_of_parse _ (Json.parse_objectText ?_ ?_)) .nil))
    · exact .cons (Json.isMember_quote _ _) (.cons (Json.isMember_quote _ _)
        (.cons (Json.isMember_quote _ _) (.cons (Json.isMember_quote _ _) .nil)))
    · show (List.map utf16 ["id", "email", "role", "orgId"]).Nodup
      decide
  · show (List.map utf16 ["accessToken", "refreshToken", "user"]).Nodup
    decide

section Opened

variable {gcm : Gcm} {sha256 : List UInt8 → Key} {calls : List SetCall}
  {sessionSecret : Option String} {token : JsString} {plaintext : String}

theorem getKey_of_encryptSession {iv : Iv}
    (h : encryptSession gcm sha256 sessionSecret iv plaintext = .ok token) :
    ∃ key, getKey sha256 sessionSecret = .ok key := by
  unfold encryptSession at h
  cases hkey : getKey sha256 sessionSecret with
  | ok key => exact ⟨key, rfl⟩
  | error err =>
    rw [hkey] at h
    cases h

/-- A token that is opened has what some call has encrypted, under the same key. -/
theorem exists_call_of_decryptSession (h : decryptSession gcm sha256 (stored sha256 calls)
    sessionSecret token = .ok (some plaintext)) :
    ∃ call ∈ calls, call.session.text = plaintext ∧
      ∃ key, getKey sha256 sessionSecret = .ok key ∧
        getKey sha256 call.sessionSecret = .ok key := by
  rw [decryptSession_eq, Except.ok.injEq] at h
  split at h
  · split at h
    · split at h
      · next result hopen =>
        subst h
        obtain ⟨-, -, key, bytes, hkey, hplain, rfl⟩ := openParts_eq_some_iff.mp hopen
        obtain ⟨hmem, -⟩ := decipher_eq_ok_iff.mp hplain
        obtain ⟨encrypted, hencrypted, hsealed⟩ := List.mem_filterMap.mp hmem
        obtain ⟨call, hcall, rfl⟩ := List.mem_map.mp hencrypted
        obtain ⟨hcallKey, -, hbytes⟩ := sealed_eq_some_iff.mp hsealed
        have htext : utf8Text bytes = call.session.text := by
          have hsame : bytes = Utf8.encode call.session.text.toList := hbytes
          rw [hsame, utf8Text_encode]
        exact ⟨call, hcall, htext.symm, key, hkey, hcallKey⟩
      · cases h
    · cases h
  · cases h

theorem decryptSession_nil :
    decryptSession gcm sha256 (stored sha256 calls) sessionSecret [] = .ok none := by
  rw [decryptSession_eq]
  rfl

/-- A token of something that is not empty is not empty either. -/
theorem getSession_of_decryptSession (hne : plaintext ≠ "")
    (h : decryptSession gcm sha256 (stored sha256 calls) sessionSecret token =
      .ok (some plaintext)) :
    getSession gcm sha256 (stored sha256 calls) sessionSecret (some token) =
      .ok (Json.parse plaintext.toList) := by
  have htoken : token ≠ [] := by
    rintro rfl
    rw [decryptSession_nil] at h
    cases h
  have hcookie : (some token).filter (· ≠ []) = some token :=
    Option.filter_eq_some_iff.mpr ⟨rfl, decide_eq_true htoken⟩
  have hplaintext : (some plaintext).filter (· ≠ "") = some plaintext :=
    Option.filter_eq_some_iff.mpr ⟨rfl, decide_eq_true hne⟩
  unfold getSession
  rw [hcookie]
  dsimp only
  rw [h]
  dsimp only [bind, Except.bind]
  rw [hplaintext]
  rfl

theorem text_ne_empty (session : Session) : session.text ≠ "" := by
  intro h
  have hparse := parse_text session
  rw [h] at hparse
  cases hparse

end Opened

/-- **Sessions are read back as they were set**: whatever calls of `setSession` there have been,
under whatever secrets, `getSession` returns what one of them has stored, or nothing. -/
theorem faithful_getSession (gcm : Gcm) (sha256 : List UInt8 → Key) (calls : List SetCall) :
    Faithful gcm sha256 calls where
  returned call hcall cookie hset := by
    obtain ⟨key, hkey⟩ := getKey_of_encryptSession hset
    obtain ⟨secret, hsecret, hlong, -⟩ := secret_of_getKey hkey
    have hreturned : Returned gcm sha256 (calls.map SetCall.encrypted) secret call.session.text
        cookie :=
      ⟨call.encrypted, List.mem_map.mpr ⟨call, hcall, rfl⟩, hsecret, rfl, hset⟩
    rw [hsecret, getSession_of_decryptSession (text_ne_empty _)
      (decryptSession_of_returned hlong hreturned), parse_text]
  authentic secret cookie value h := by
    unfold getSession at h
    split at h
    · cases h
    · next raw hraw =>
      cases hplain : decryptSession gcm sha256 (stored sha256 calls) secret raw with
      | error err =>
        rw [hplain] at h
        cases h
      | ok plaintext =>
        rw [hplain] at h
        dsimp only [bind, Except.bind] at h
        split at h
        · cases h
        · next text htext =>
          obtain ⟨rfl, -⟩ := Option.filter_eq_some_iff.mp htext
          obtain ⟨call, hcall, rfl, hkeys⟩ := exists_call_of_decryptSession hplain
          rw [parse_text] at h
          exact ⟨call, hcall, Option.some.inj (Except.ok.inj h), hkeys⟩
  total secret cookie := by
    unfold getSession
    split
    · exact ⟨none, rfl⟩
    · rw [decryptSession_eq]
      dsimp only [bind, Except.bind]
      split
      · exact ⟨none, rfl⟩
      · exact ⟨_, rfl⟩

end CloudMesh.Auth.SessionCrypto
