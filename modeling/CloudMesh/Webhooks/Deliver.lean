import CloudMesh.Json
import CloudMesh.JsonText
import CloudMesh.Webhooks.Ssrf

/-!
# One attempt at a delivery

`packages/webhooks/src/deliver.ts` with the client behind `fetch`. The check of the target looks its
host up and drops the addresses; the client looks it up again for every connection and connects to
what it is told then.

## Main definitions

- `send`, `fetch` — the client: lookups of its own, and the addresses in their order
- `attemptDelivery` — the check, and then the request
- `Rebound` — a lookup of the client disagrees with that of the check
- `connectsSafely_iff` — when no forbidden address is reached
-/

namespace CloudMesh.Webhooks

open Concurrent

/-! ## `fetch` -/

/-- What the runtime provides: `new URL`, `Date.prototype.toISOString` and HMAC-SHA256 in hex. -/
structure Platform where
  parseUrl : String → Option Url
  toISOString : ℤ → String
  hmacSha256 : String → String → String

/-- The addresses are tried until one of them can be reached. -/
def connectAny : List String → Prog Unit
  | [] => throw "connection failed"
  | address :: addresses => tryCatch (command (.connect address)) fun _ => connectAny addresses

/-- The request on a new connection, for which the host is looked up unless it is an address. A 407
ends the request. -/
def send (url : Url) (headers : List (String × String)) (body : String) : Prog Response := do
  (if isIP url.host ≠ 0 then command (.connect url.host)
    else do connectAny (← command (.lookup url.host)) : Prog Unit)
  let response ← command (.post headers body)
  if response.status = 407 then throw "fetch failed"
  pure response

/-- A request without redirects. One that is answered by 421 is sent once more. -/
def fetch (platform : Platform) (rawUrl : String) (headers : List (String × String))
    (body : String) : Prog Response :=
  match platform.parseUrl rawUrl with
  | none => throw "Failed to parse URL"
  | some url => do
    let response ← send url headers body
    if response.status = 421 then send url headers body else pure response

/-! ## `deliver.ts` -/

inductive DeliveryOutcome
  | delivered
  | rejected
  | retry
  deriving DecidableEq, Repr

structure DeliveryAttemptResult where
  outcome : DeliveryOutcome
  responseStatus : Option ℕ
  responseBody : Option JsString
  errorMessage : Option String
  deriving DecidableEq

/-- The payload is given by its JSON text. -/
structure WebhookJobData where
  url : String
  secret : String
  eventType : String
  payload : String

def responseBodyMaxLength : ℕ := 2000

def classify (response : Response) : DeliveryAttemptResult :=
  let body := (utf16 (response.text.getD "")).take responseBodyMaxLength
  if 200 ≤ response.status ∧ response.status < 300 then
    ⟨.delivered, some response.status, some body, none⟩
  else if 300 ≤ response.status ∧ response.status < 400 then
    ⟨.rejected, some response.status, some body,
      some "redirect response — not followed, not retried"⟩
  else if 400 ≤ response.status ∧ response.status < 500 then
    ⟨.rejected, some response.status, some body, none⟩
  else ⟨.retry, some response.status, some body, none⟩

section Code

variable (platform : Platform)

def signWebhookPayload (rawBody secret : String) : String := platform.hmacSha256 secret rawBody

/-- `JSON.stringify({ event, data, timestamp })`. -/
def webhookBody (job : WebhookJobData) (now : ℤ) : String :=
  "\x7b\"event\":" ++ quote job.eventType ++ ",\"data\":" ++ job.payload ++ ",\"timestamp\":" ++
    quote (platform.toISOString now) ++ "\x7d"

def sendAndClassify (job : WebhookJobData) : Prog DeliveryAttemptResult := do
  let now ← command .dateNow
  let body := webhookBody platform job now
  let signature := signWebhookPayload platform body job.secret
  tryCatch
    (classify <$> fetch platform job.url
      [("Content-Type", "application/json"), ("X-CloudMesh-Signature", signature)] body)
    fun message => pure ⟨.retry, none, none, some message⟩

def attemptDelivery (job : WebhookJobData) : Prog DeliveryAttemptResult := do
  let ssrf ← isSafeWebhookTarget platform.parseUrl job.url
  if ssrf.safe then sendAndClassify platform job
  else
    pure ⟨.rejected, none, none,
      some ("blocked by SSRF guard: " ++ ssrf.reason.getD "undefined")⟩

end Code

/-! ## What is reached -/

/-- The answers to the lookups, the latest first. -/
def lookups (t : Transcript sig) : List (Except String (List String)) :=
  t.filterMap fun
    | ⟨.lookup _, answer⟩ => some answer
    | _ => none

/-- The lookups are answered from the sequence, one after the other. -/
def Answered (dns : ℕ → Except String (List String)) (t : Transcript sig) : Prop :=
  ∀ i answer, (lookups t).reverse[i]? = some answer → answer = dns i

/-- Only addresses that the check accepts are connected to. -/
def ConnectsSafely (dns : ℕ → Except String (List String)) (t : Transcript sig) (c : Cmd) : Prop :=
  Answered dns t → ∀ address, c = .connect address → checkAddress address = true

/-- The host is looked up for the check, which accepts all addresses, and a lookup of the client is
answered with one that the check does not accept: its first, or the one for the request that is
sent again after a 421. -/
structure Rebound (platform : Platform) (rawUrl : String) (dns : ℕ → Except String (List String))
    (url : Url) (checked used : List String) : Prop where
  parsed : platform.parseUrl rawUrl = some url
  secure : url.protocol = "https:"
  named : isIP url.host = 0
  first : dns 0 = .ok checked
  found : checked ≠ []
  accepted : ∀ address ∈ checked, checkAddress address = true
  second : dns 1 = .ok used
  rejected : (∃ address ∈ used, checkAddress address = false) ∨
    used ≠ [] ∧ ∃ again, dns 2 = .ok again ∧ ∃ address ∈ again, checkAddress address = false

section Forward

variable {platform : Platform} {job : WebhookJobData} {dns : ℕ → Except String (List String)}
  {t : Transcript sig}

theorem connectsSafely_of_ne {c : Cmd} (h : ∀ address, c ≠ .connect address) :
    ConnectsSafely dns t c :=
  fun _ address heq => absurd heq (h address)

theorem safe_checkAll {addresses : List String} : (checkAll addresses).safe = true ↔
    addresses ≠ [] ∧ ∀ address ∈ addresses, checkAddress address = true := by
  unfold checkAll
  split
  · simp_all
  · rename_i hne
    cases hfind : addresses.find? fun address => !checkAddress address with
    | none => simpa [hne] using List.find?_eq_none.mp hfind
    | some address =>
      have hmem := List.mem_of_find?_eq_some hfind
      have hbad := List.find?_some hfind
      simp only [Bool.false_eq_true, false_iff, not_and, not_forall]
      exact fun _ => ⟨address, hmem, by simpa using hbad⟩

/-- What the check has seen of a target that it accepts. -/
inductive Checked (platform : Platform) (rawUrl : String) (t : Transcript sig) : Prop
  | literal (url : Url) (hparse : platform.parseUrl rawUrl = some url) (hip : isIP url.host ≠ 0)
      (haddress : checkAddress url.host = true)
  | named (url : Url) (addresses : List String) (hparse : platform.parseUrl rawUrl = some url)
      (hsecure : url.protocol = "https:") (hip : isIP url.host = 0)
      (hlookups : lookups t = [.ok addresses]) (hfound : addresses ≠ [])
      (haccepted : ∀ address ∈ addresses, checkAddress address = true)

theorem isSafeWebhookTarget_triple : Handler.Triple (ConnectsSafely dns) (fun t => lookups t = [])
    (isSafeWebhookTarget platform.parseUrl job.url)
    (fun ssrf t => ssrf.safe = true → Checked platform job.url t) fun _ _ => True := by
  unfold isSafeWebhookTarget
  cases hparse : platform.parseUrl job.url with
  | none => exact .pure fun _ _ h => absurd h Bool.false_ne_true
  | some url =>
    dsimp only
    split
    · exact .pure fun _ _ h => absurd h Bool.false_ne_true
    · rename_i hsecure
      split
      · rename_i hip
        refine .pure fun t _ h => ?_
        cases haddress : checkAddress url.host with
        | true => exact .literal url hparse hip haddress
        | false => simp [haddress] at h
      · rename_i hip
        have hlookup : ∀ {Q : List String → Transcript sig → Prop},
            (∀ answer t, lookups t = [.ok answer] → Q answer t) →
              Handler.Triple (ConnectsSafely dns) (fun t => lookups t = [])
                (command (.lookup url.host)) Q fun _ _ => True := by
          intro Q hQ
          refine Program.Triple.call (fun _ _ => connectsSafely_of_ne nofun) fun t r ht => ?_
          cases r with
          | ok answer => exact hQ answer _ (by simpa [lookups] using ht)
          | error err => trivial
        refine Handler.Triple.tryCatch (F := fun _ _ => True) (Handler.Triple.bind (hlookup
          (Q := fun answer t => lookups t = [.ok answer]) fun _ _ h => h) fun answer =>
            .pure fun t ht h => ?_) fun _ => .pure fun _ _ h => absurd h Bool.false_ne_true
        obtain ⟨hfound, haccepted⟩ := safe_checkAll.mp h
        exact .named url answer hparse (not_not.mp hsecure) (not_not.mp hip) ht hfound haccepted

theorem Checked.of_lookups {t' : Transcript sig} (h : Checked platform job.url t)
    (hle : lookups t' = lookups t) : Checked platform job.url t' := by
  cases h with
  | literal url hparse hip haddress => exact .literal url hparse hip haddress
  | named url addresses hparse hsecure hip hlookups hfound haccepted =>
    exact .named url addresses hparse hsecure hip (hle.trans hlookups) hfound haccepted

/-- The latest of the lookups is the next in the sequence. -/
theorem answered_latest {latest : Except String (List String)}
    {past : List (Except String (List String))} (h : Answered dns t)
    (ht : lookups t = latest :: past) : latest = dns past.length :=
  h past.length latest (by simp [ht])

theorem connectAny_every {addresses : List String} {P : Cmd → Prop}
    (hP : ∀ address ∈ addresses, P (.connect address)) :
    Handler.Every P (connectAny addresses) := by
  induction addresses with
  | nil => exact Handler.every_throw _
  | cons address addresses ih =>
    refine Handler.Every.tryCatch ⟨hP _ List.mem_cons_self, fun _ => trivial⟩ fun _ => ?_
    exact ih fun a ha => hP a (List.mem_cons_of_mem _ ha)

/-- A connection that has been made is to one of the addresses. -/
theorem connectAny_triple {used : List String} {past : List (Except String (List String))}
    (hsafe : ∀ t, lookups t = .ok used :: past → Answered dns t →
      ∀ address ∈ used, checkAddress address = true) :
    Handler.Triple (ConnectsSafely dns) (fun t => lookups t = .ok used :: past) (connectAny used)
      (fun _ t => used ≠ [] ∧ lookups t = .ok used :: past) fun _ _ => True := by
  cases used with
  | nil => exact .throw fun _ _ => trivial
  | cons first rest =>
    refine (Handler.Triple.of_every (connectAny_every (P := fun c => ∃ address ∈ first :: rest,
      c = .connect address) fun address h => ⟨address, h, rfl⟩) ?_ ?_).conseq
        (fun _ h => h) (fun _ _ h => ⟨List.cons_ne_nil _ _, h⟩) fun _ _ _ => trivial
    · rintro t c ht ⟨address, hmem, rfl⟩ hanswered address' heq
      cases heq
      exact hsafe t ht hanswered address hmem
    · rintro t c r ht ⟨address, hmem, rfl⟩
      exact ht

/-- One request to a host that is looked up. -/
theorem send_triple {url : Url} {past : List (Except String (List String))}
    (hip : isIP url.host = 0)
    (hsafe : ∀ used t, lookups t = .ok used :: past → Answered dns t →
      ∀ address ∈ used, checkAddress address = true)
    (headers : List (String × String)) (body : String) :
    Handler.Triple (ConnectsSafely dns) (fun t => lookups t = past) (send url headers body)
      (fun _ t => ∃ used, used ≠ [] ∧ lookups t = .ok used :: past) fun _ _ => True := by
  unfold send
  rw [if_neg (not_not.mpr hip)]
  refine Handler.Triple.bind (Q := fun _ t => ∃ used, used ≠ [] ∧ lookups t = .ok used :: past)
    ?_ fun _ => ?_
  · refine Handler.Triple.bind (Q := fun used t => lookups t = .ok used :: past) ?_ fun used => ?_
    · refine Program.Triple.call (fun _ _ => connectsSafely_of_ne nofun) fun t r ht => ?_
      cases r with
      | error err => trivial
      | ok used => simpa [lookups] using ht
    · exact (connectAny_triple (hsafe used)).conseq (fun _ h => h) (fun _ _ h => ⟨used, h⟩)
        fun _ _ _ => trivial
  · refine Handler.Triple.bind (Q := fun _ t => ∃ used, used ≠ [] ∧ lookups t = .ok used :: past)
      ?_ fun response => ?_
    · refine Program.Triple.call (fun _ _ => connectsSafely_of_ne nofun) fun t r ht => ?_
      cases r with
      | error err => trivial
      | ok response => exact ht
    · dsimp only
      split
      · exact .throw fun _ _ => trivial
      · exact .pure fun _ h => h

/-- What is sent to an address is sent to that address only. -/
theorem send_every {url : Url} {P : Cmd → Prop} {headers : List (String × String)} {body : String}
    (hip : isIP url.host ≠ 0) (hconnect : P (.connect url.host)) (hpost : P (.post headers body)) :
    Handler.Every P (send url headers body) := by
  unfold send
  rw [if_pos hip]
  refine Handler.Every.bind ⟨hconnect, fun _ => trivial⟩ fun _ =>
    Handler.Every.bind ⟨hpost, fun _ => trivial⟩ fun response => ?_
  dsimp only
  split
  · exact Handler.every_throw _
  · exact Handler.every_pure _

theorem fetch_triple (hsound : ∀ url checked used, ¬Rebound platform job.url dns url checked used)
    (headers : List (String × String)) (body : String) :
    Handler.Triple (ConnectsSafely dns) (Checked platform job.url)
      (fetch platform job.url headers body) (fun _ _ => True) fun _ _ => True := by
  intro t ht
  unfold fetch
  cases ht with
  | literal url hparse hip haddress =>
    rw [hparse]
    let Safe (c : Cmd) : Prop := ∀ address, c = .connect address → checkAddress address = true
    have hevery : Handler.Every Safe (send url headers body) := by
      refine send_every hip (fun address heq => ?_) fun address heq => by cases heq
      cases heq
      exact haddress
    refine Handler.Triple.of_every (M := ConnectsSafely dns) (P := fun _ => True) (C := Safe)
      (Handler.Every.bind hevery fun response => ?_) (fun t c _ hc _ => hc)
      (fun _ _ _ _ _ => trivial) t trivial
    split
    · exact hevery
    · exact Handler.every_pure _
  | named url checked hparse hsecure hip hlookups hfound haccepted =>
    rw [hparse]
    -- the addresses of the client have not been checked
    have hsecond : ∀ used t, lookups t = [.ok used, .ok checked] → Answered dns t →
        ∀ address ∈ used, checkAddress address = true := by
      intro used t ht hanswered address hmem
      by_contra hbad
      exact hsound url checked used ⟨hparse, hsecure, hip, (hanswered 0 _ (by rw [ht]; rfl)).symm,
        hfound, haccepted, (answered_latest hanswered ht).symm,
        .inl ⟨address, hmem, Bool.eq_false_of_not_eq_true hbad⟩⟩
    have hthird : ∀ used, used ≠ [] → ∀ again t,
        lookups t = [.ok again, .ok used, .ok checked] → Answered dns t →
          ∀ address ∈ again, checkAddress address = true := by
      intro used hused again t ht hanswered address hmem
      by_contra hbad
      exact hsound url checked used ⟨hparse, hsecure, hip, (hanswered 0 _ (by rw [ht]; rfl)).symm,
        hfound, haccepted, (hanswered 1 _ (by rw [ht]; rfl)).symm,
        .inr ⟨hused, again, (answered_latest hanswered ht).symm, address, hmem,
          Bool.eq_false_of_not_eq_true hbad⟩⟩
    refine Handler.Triple.bind (send_triple hip hsecond headers body) (fun response => ?_) t
      hlookups
    rintro t ⟨used, hused, ht⟩
    dsimp only
    split
    · exact (send_triple hip (hthird used hused) headers body).conseq (fun _ h => h)
        (fun _ _ _ => trivial) (fun _ _ _ => trivial) t ht
    · trivial

theorem attemptDelivery_triple
    (hsound : ∀ url checked used, ¬Rebound platform job.url dns url checked used) :
    Handler.Triple (ConnectsSafely dns) (fun t => lookups t = []) (attemptDelivery platform job)
      (fun _ _ => True) fun _ _ => True := by
  refine isSafeWebhookTarget_triple.bind fun ssrf => ?_
  cases hsafe : ssrf.safe with
  | false => exact .pure fun _ _ => trivial
  | true =>
    refine Handler.Triple.bind (Q := fun _ => Checked platform job.url) ?_ fun now => ?_
    · refine Program.Triple.call (fun _ _ => connectsSafely_of_ne nofun) fun t r ht => ?_
      cases r with
      | ok now => exact (ht rfl).of_lookups rfl
      | error err => trivial
    · exact Handler.Triple.tryCatch (F := fun _ _ => True) ((fetch_triple hsound _ _).map _)
        fun _ => .pure fun _ _ => trivial

end Forward

section Backward

variable {platform : Platform} {job : WebhookJobData} {dns : ℕ → Except String (List String)}
  {t : Transcript sig} {url : Url} {checked used : List String}

theorem command_ends (c : sig.Cmd) (a : Res c) (t : Transcript sig) :
    (command c).Ends t a (⟨c, .ok a⟩ :: t) :=
  .issue (.ok a) (.done _ _)

/-- Every address can be tried, if the ones before it cannot be reached. -/
theorem connectAny_reaches {M : Transcript sig → sig.Cmd → Prop}
    {Q : Except String Unit → Transcript sig → Prop} {addresses : List String} {address : String}
    (h : (connectAny addresses).run.Follows M Q t) (hmem : address ∈ addresses) :
    ∃ t', lookups t' = lookups t ∧ M t' (.connect address) := by
  induction addresses generalizing t with
  | nil => cases hmem
  | cons first rest ih =>
    rcases List.mem_cons.mp hmem with rfl | hmem
    · exact ⟨t, rfl, h.1⟩
    · obtain ⟨t', hlookups, hM⟩ := ih (h.2 (.error "unreachable")) hmem
      exact ⟨t', hlookups, hM⟩

theorem Rebound.check_ends (hr : Rebound platform job.url dns url checked used) :
    (isSafeWebhookTarget platform.parseUrl job.url).Ends [] ⟨true, none⟩
      [⟨.lookup url.host, .ok checked⟩] := by
  have hcheck : checkAll checked = ⟨true, none⟩ := by
    unfold checkAll
    rw [if_neg hr.found, List.find?_eq_none.mpr]
    intro address hmem
    rw [hr.accepted address hmem]
    decide
  unfold isSafeWebhookTarget
  rw [hr.parsed]
  dsimp only
  rw [if_neg (not_not.mpr hr.secure), if_neg (not_not.mpr hr.named)]
  refine Handler.Ends.tryCatch (Handler.Ends.bind (command_ends (.lookup url.host) checked []) ?_)
  rw [hcheck]
  exact Handler.ends_pure

/-- A request to a host that is looked up is answered, if the first address can be reached. -/
theorem send_ends (address : String) (rest : List String) (response : Response)
    (hip : isIP url.host = 0) (hstatus : response.status ≠ 407) (headers : List (String × String))
    (body : String) : (send url headers body).Ends t response
      (⟨.post headers body, .ok response⟩ :: ⟨.connect address, .ok ()⟩ ::
        ⟨.lookup url.host, .ok (address :: rest)⟩ :: t) := by
  unfold send
  rw [if_neg (not_not.mpr hip)]
  refine Handler.Ends.bind (Handler.Ends.bind (command_ends (.lookup url.host) (address :: rest) t)
    (Handler.Ends.tryCatch (command_ends (.connect address) () _))) ?_
  refine Handler.Ends.bind (command_ends (.post headers body) response _) ?_
  dsimp only
  rw [if_neg hstatus]
  exact Handler.ends_pure

/-- Every address of a lookup can be tried. -/
theorem send_reaches {Q : Except String Response → Transcript sig → Prop}
    {headers : List (String × String)} {body : String} {used : List String}
    (past : List (Except String (List String))) (hip : isIP url.host = 0)
    (h : (send url headers body).run.Follows (ConnectsSafely dns) Q t) (ht : lookups t = past)
    (hanswered : ∀ t', lookups t' = .ok used :: past → Answered dns t') :
    ∀ address ∈ used, checkAddress address = true := by
  intro address hmem
  unfold send at h
  rw [if_neg (not_not.mpr hip)] at h
  have hconnect := Handler.follows_of_ends (x := command (.lookup url.host))
    (Handler.follows_left h) (command_ends _ used _)
  obtain ⟨t', hlookups, hM⟩ := connectAny_reaches hconnect hmem
  have hboth : lookups t' = .ok used :: past := by
    rw [hlookups, ← ht]
    rfl
  exact hM (hanswered t' hboth) address rfl

/-- The client is told a bad address after the check has been told good ones. -/
theorem not_rebound_of_follows (hr : Rebound platform job.url dns url checked used)
    (h : (attemptDelivery platform job).run.Follows (ConnectsSafely dns) (fun _ _ => True) []) :
    False := by
  have hsend := Handler.follows_of_ends (x := isSafeWebhookTarget _ _) h hr.check_ends
  have htried := Handler.follows_of_ends (x := command .dateNow) hsend (command_ends _ 0 _)
  have hmapped := Handler.follows_tried (x := classify <$> fetch platform job.url _ _) htried
  rw [map_eq_pure_bind] at hmapped
  have hfetch := Handler.follows_left hmapped
  unfold fetch at hfetch
  rw [hr.parsed] at hfetch
  dsimp only at hfetch
  rcases hr.rejected with ⟨address, hmem, hbad⟩ | ⟨hused, again, hthird, address, hmem, hbad⟩
  · have hgood := send_reaches [.ok checked] hr.named (Handler.follows_left hfetch) rfl
      (fun t' ht' i answer hi => ?_) address hmem
    · exact Bool.false_ne_true (hbad.symm.trans hgood)
    · rw [ht'] at hi
      rcases i with _ | _ | i <;> cases hi
      · exact hr.first.symm
      · exact hr.second.symm
  · -- the first request is misdirected
    obtain ⟨first, rest, rfl⟩ := List.exists_cons_of_ne_nil hused
    have hagain := Handler.follows_of_ends (x := send url _ _) hfetch
      (send_ends first rest ⟨421, none⟩ hr.named (by decide) _ _)
    rw [if_pos rfl] at hagain
    have hgood := send_reaches [.ok (first :: rest), .ok checked] hr.named hagain rfl
      (fun t' ht' i answer hi => ?_) address hmem
    · exact Bool.false_ne_true (hbad.symm.trans hgood)
    · rw [ht'] at hi
      rcases i with _ | _ | _ | i <;> cases hi
      · exact hr.first.symm
      · exact hr.second.symm
      · exact hthird.symm

end Backward

/-- `new URL` of one address, and a runtime that does nothing else. -/
def oneHook : Platform where
  parseUrl rawUrl :=
    if rawUrl = "https://hooks.example/x" then some ⟨"https:", "hooks.example"⟩ else none
  toISOString _ := "1970-01-01T00:00:00.000Z"
  hmacSha256 _ _ := ""

def hook : WebhookJobData := ⟨"https://hooks.example/x", "whsec_1", "job.completed", "\x7b\x7d"⟩

/-- A public address first, and the metadata endpoint next. -/
def repointed : ℕ → Except String (List String)
  | 0 => .ok ["93.184.216.34"]
  | _ => .ok ["169.254.169.254"]

end CloudMesh.Webhooks
