import CloudMesh.Billing.Stripe
import CloudMesh.JsonReads
import CloudMesh.Webhooks.Deliver

/-!
# Signatures

`packages/webhooks/src/hmac.ts` against the requests of `attemptDelivery`: a receiver that holds the
secret accepts what is sent, as it stands, and reads the event out of it. HMAC-SHA256 is a
parameter.

## Main definitions

- `verifyWebhookSignature` — the receiver's check
- `Spells` — a text that is accepted for a digest
- `Signed` — what a receiver can rely on
- `SendsSigned` — the request is signed, and stamped with the time of the attempt
- `attemptDelivery_signed` — every request of every attempt
-/

namespace CloudMesh.Webhooks

open Concurrent Stripe

/-! ## `hmac.ts` -/

/-- `digest("hex")` as a text. -/
def hexText (bytes : List UInt8) : String :=
  String.ofList (bytes.flatMap fun byte =>
    [CloudMesh.hexDigit (byte.toNat / 16), CloudMesh.hexDigit (byte.toNat % 16)])

/-- The runtime with its HMAC as a digest. -/
def Platform.withHmac (platform : Platform) (H : String → String → Digest) : Platform :=
  { platform with hmacSha256 := fun secret rawBody => hexText (H secret rawBody).val }

/-- `Buffer.from` of a hexadecimal text does not throw. -/
def verifyWebhookSignature (platform : Platform) (rawBody secret : String)
    (signature : JsString) : Bool :=
  let expected := signWebhookPayload platform rawBody secret
  let expectedBuf := fromHex (utf16 expected)
  let actualBuf := fromHex signature
  expectedBuf.length = actualBuf.length && expectedBuf = actualBuf

/-! ## What is accepted -/

/-- The text does not begin with the digits of a byte. -/
def NoByte (s : JsString) : Prop :=
  ∀ high low rest, s = high :: low :: rest → ofHexUnit high = none ∨ ofHexUnit low = none

/-- The digits of the bytes, whatever their case, and behind them anything but the digits of one
more byte. -/
def Spells (bytes : List UInt8) (s : JsString) : Prop :=
  ∃ digits rest, s = digits ++ rest ∧ digits.map ofHexUnit = (toHex bytes).map ofHexUnit ∧
    NoByte rest

theorem utf16_hexText (bytes : List UInt8) : utf16 (hexText bytes) = toHex bytes := by
  have hdigit : ∀ n < 16, utf16Char (CloudMesh.hexDigit n) = [toHexUnit n] := by decide
  rw [hexText, utf16, String.toList_ofList]
  induction bytes with
  | nil => rfl
  | cons byte bytes ih =>
    have hbyte : byte.toNat < 256 := byte.toNat_lt
    have hhigh := hdigit (byte.toNat / 16) (by omega)
    have hlow := hdigit (byte.toNat % 16) (by omega)
    rw [List.flatMap_cons, List.flatMap_append, ih]
    show utf16Char _ ++ (utf16Char _ ++ []) ++ toHex bytes = _
    rw [hhigh, hlow]
    rfl

theorem ofHexUnit_lt {unit : UInt16} {n : ℕ} (h : ofHexUnit unit = some n) : n < 16 := by
  have hall : ∀ byte < 256, (Json.hexDigitOf (Char.ofNat byte)).all (· < 16) = true := by
    decide +kernel
  have hunit := hall (unit.toNat % 256) (Nat.mod_lt _ (by norm_num))
  rw [show Json.hexDigitOf (Char.ofNat (unit.toNat % 256)) = some n from h] at hunit
  exact of_decide_eq_true hunit

theorem fromHex_pair {high low : UInt16} {h l : ℕ} (hhigh : ofHexUnit high = some h)
    (hlow : ofHexUnit low = some l) (s : JsString) :
    fromHex (high :: low :: s) = UInt8.ofNat (16 * h + l) :: fromHex s := by
  rw [fromHex, hhigh, hlow]

theorem fromHex_of_noByte {s : JsString} (h : NoByte s) : fromHex s = [] := by
  unfold fromHex
  split
  · rename_i high low rest
    rcases h high low rest rfl with hhigh | hlow
    · rw [hhigh]
    · rw [hlow]
      split <;> simp_all
  · rfl

/-- The two digits of a byte are its halves. -/
theorem ofHexUnit_halves {h l : ℕ} (hh : h < 16) (hl : l < 16) :
    ofHexUnit (toHexUnit ((UInt8.ofNat (16 * h + l)).toNat / 16)) = some h ∧
      ofHexUnit (toHexUnit ((UInt8.ofNat (16 * h + l)).toNat % 16)) = some l := by
  have hbyte : (UInt8.ofNat (16 * h + l)).toNat = 16 * h + l := by
    rw [UInt8.toNat_ofNat']
    omega
  rw [hbyte, show (16 * h + l) / 16 = h by omega, show (16 * h + l) % 16 = l by omega]
  exact ⟨ofHexUnit_toHexUnit hh, ofHexUnit_toHexUnit hl⟩

theorem spells_fromHex (s : JsString) : Spells (fromHex s) s := by
  induction s using fromHex.induct with
  | case1 high low s h l hlow hhigh ih =>
    obtain ⟨digits, rest, rfl, hdigits, hrest⟩ := ih
    obtain ⟨hhigh', hlow'⟩ := ofHexUnit_halves (ofHexUnit_lt hhigh) (ofHexUnit_lt hlow)
    rw [fromHex_pair hhigh hlow]
    refine ⟨high :: low :: digits, rest, rfl, ?_, hrest⟩
    show ofHexUnit high :: ofHexUnit low :: digits.map ofHexUnit =
      ofHexUnit (toHexUnit _) :: ofHexUnit (toHexUnit _) :: (toHex (fromHex _)).map ofHexUnit
    rw [hhigh, hlow, hhigh', hlow', hdigits]
  | case2 high low s hno =>
    have hnone : NoByte (high :: low :: s) := by
      rintro _ _ _ ⟨⟩
      by_contra hsome
      rw [not_or, ← ne_eq, ← ne_eq, Option.ne_none_iff_exists', Option.ne_none_iff_exists'] at hsome
      obtain ⟨⟨h, hhigh⟩, l, hlow⟩ := hsome
      exact hno h l hhigh hlow
    rw [fromHex_of_noByte hnone]
    exact ⟨[], _, rfl, rfl, hnone⟩
  | case3 s hno =>
    have hnone : NoByte s := fun high low rest hs => (hno high low rest hs).elim
    rw [fromHex_of_noByte hnone]
    exact ⟨[], _, rfl, rfl, hnone⟩

theorem fromHex_eq_iff {s : JsString} {bytes : List UInt8} :
    fromHex s = bytes ↔ Spells bytes s := by
  constructor
  · rintro rfl
    exact spells_fromHex s
  · rintro ⟨digits, rest, rfl, hdigits, hrest⟩
    induction bytes generalizing digits with
    | nil =>
      obtain rfl := List.map_eq_nil_iff.mp hdigits
      exact fromHex_of_noByte hrest
    | cons byte bytes ih =>
      have hbyte : byte.toNat < 256 := byte.toNat_lt
      obtain ⟨high, digits, rfl, hhigh, hdigits⟩ := List.map_eq_cons_iff.mp hdigits
      obtain ⟨low, digits, rfl, hlow, hdigits⟩ := List.map_eq_cons_iff.mp hdigits
      rw [ofHexUnit_toHexUnit (by omega)] at hhigh hlow
      rw [List.cons_append, List.cons_append, fromHex_pair hhigh hlow, ih digits hdigits,
        Nat.div_add_mod, UInt8.ofNat_toNat]

section Check

variable {platform : Platform} {H : String → String → Digest} {rawBody secret : String}
  {signature : JsString}

theorem verifyWebhookSignature_iff :
    verifyWebhookSignature (platform.withHmac H) rawBody secret signature = true ↔
      fromHex signature = (H secret rawBody).val := by
  have hexpected : fromHex (utf16 (signWebhookPayload (platform.withHmac H) rawBody secret)) =
      (H secret rawBody).val := by
    rw [signWebhookPayload, Platform.withHmac, utf16_hexText, fromHex_toHex]
  rw [verifyWebhookSignature, hexpected]
  simp only [Bool.and_eq_true, decide_eq_true_eq]
  constructor
  · rintro ⟨-, h⟩
    exact h.symm
  · intro h
    rw [h]
    exact ⟨rfl, rfl⟩

end Check

/-! ## What is sent -/

/-- What a receiver that holds the secret can rely on: it accepts the signature for the body that it
gets, and for another body or another secret only where the digests collide; for that body it
accepts what spells the digest and nothing else; and the body says what the event is, and when it
was sent. -/
structure Signed (platform : Platform) (H : String → String → Digest) (job : WebhookJobData)
    (now : ℤ) (headers : List (String × String)) (body : String) : Prop where
  header : ∃ signature, headers.lookup "X-CloudMesh-Signature" = some signature ∧
    ∀ rawBody secret,
      verifyWebhookSignature (platform.withHmac H) rawBody secret (utf16 signature) = true ↔
        H secret rawBody = H job.secret body
  accepted : ∀ signature,
    verifyWebhookSignature (platform.withHmac H) body job.secret signature = true ↔
      Spells (H job.secret body).val signature
  parsed : ∀ payload, Json.parse job.payload.toList = some payload →
    Json.parse body.toList = some (.object [(utf16 "event", .string (utf16 job.eventType)),
      (utf16 "data", payload), (utf16 "timestamp", .string (utf16 (platform.toISOString now)))])

section Sent

variable {platform : Platform} {H : String → String → Digest} {job : WebhookJobData}

/-- The text of the body is that of an object with three fields. -/
theorem toList_webhookBody (platform : Platform) (job : WebhookJobData) (now : ℤ) :
    (webhookBody platform job now).toList =
      Json.objectText [("event", (quote job.eventType).toList), ("data", job.payload.toList),
        ("timestamp", (quote (platform.toISOString now)).toList)] := by
  have hevent : "\x7b\"event\":".toList = '\x7b' :: ((quote "event").toList ++ [':']) := by decide
  have hdata : ",\"data\":".toList = ',' :: ((quote "data").toList ++ [':']) := by decide
  have htime : ",\"timestamp\":".toList = ',' :: ((quote "timestamp").toList ++ [':']) := by decide
  have hend : "\x7d".toList = ['\x7d'] := by decide
  unfold webhookBody
  rw [String.toList_append, String.toList_append, String.toList_append, String.toList_append,
    String.toList_append, String.toList_append, hevent, hdata, htime, hend]
  simp only [Json.objectText, Json.memberText, List.map_cons, List.map_nil,
    List.intercalate_cons_cons, List.intercalate_singleton, List.append_assoc, List.cons_append,
    List.nil_append]

theorem parse_webhookBody {payload : Json} (h : Json.parse job.payload.toList = some payload)
    (now : ℤ) : Json.parse (webhookBody platform job now).toList =
      some (.object [(utf16 "event", .string (utf16 job.eventType)), (utf16 "data", payload),
        (utf16 "timestamp", .string (utf16 (platform.toISOString now)))]) := by
  rw [toList_webhookBody]
  apply Json.parse_objectText
  · exact .cons (Json.isMember_quote _ _) (.cons (Json.isMember_of_parse _ h)
      (.cons (Json.isMember_quote _ _) .nil))
  · show (List.map utf16 ["event", "data", "timestamp"]).Nodup
    decide

theorem signed_webhookBody (now : ℤ) : Signed platform H job now
    [("Content-Type", "application/json"), ("X-CloudMesh-Signature",
      signWebhookPayload (platform.withHmac H) (webhookBody platform job now) job.secret)]
    (webhookBody platform job now) where
  header := by
    refine ⟨_, rfl, fun rawBody secret => ?_⟩
    rw [verifyWebhookSignature_iff, signWebhookPayload, Platform.withHmac, utf16_hexText,
      fromHex_toHex, Subtype.coe_inj]
    exact eq_comm
  accepted signature := by rw [verifyWebhookSignature_iff, fromHex_eq_iff]
  parsed payload h := parse_webhookBody h now

/-- What the clock has answered, the latest first. -/
def clockReads (t : Transcript sig) : List ℤ :=
  t.filterMap fun
    | ⟨.dateNow, .ok now⟩ => some now
    | _ => none

/-- A request is signed, and its body is stamped with the only time that the attempt has read. -/
def SendsSigned (platform : Platform) (H : String → String → Digest) (job : WebhookJobData)
    (t : Transcript sig) : Cmd → Prop
  | .post headers body => ∃ now, clockReads t = [now] ∧ Signed platform H job now headers body
  | .dateNow | .lookup _ | .connect _ => True

/-- The commands of the check, which sends nothing and does not ask for the time. -/
def Cmd.isCheck : Cmd → Bool
  | .lookup _ | .connect _ => true
  | .dateNow | .post .. => false

theorem isSafeWebhookTarget_checks (rawUrl : String) :
    Handler.Every (fun c : Cmd => c.isCheck = true)
      (isSafeWebhookTarget platform.parseUrl rawUrl) := by
  unfold isSafeWebhookTarget
  split
  · exact Handler.every_pure _
  · split
    · exact Handler.every_pure _
    · split
      · exact Handler.every_pure _
      · refine Handler.Every.tryCatch (Handler.Every.bind ⟨rfl, fun _ => trivial⟩
          fun addresses => Handler.every_pure _) fun _ => Handler.every_pure _

/-- The client connects, and sends the request that it is given. -/
theorem send_posts (url : Url) (headers : List (String × String)) (body : String) :
    Handler.Every (fun c : Cmd => c.isCheck = true ∨ c = .post headers body)
      (send url headers body) := by
  refine Handler.Every.bind ?_ fun _ => Handler.Every.bind ⟨.inr rfl, fun _ => trivial⟩
    fun response => ?_
  · split
    · exact ⟨.inl rfl, fun _ => trivial⟩
    · exact Handler.Every.bind ⟨.inl rfl, fun _ => trivial⟩ fun addresses =>
        connectAny_every fun _ _ => .inl rfl
  · dsimp only
    split
    · exact Handler.every_throw _
    · exact Handler.every_pure _

theorem fetch_posts (rawUrl : String) (headers : List (String × String)) (body : String) :
    Handler.Every (fun c : Cmd => c.isCheck = true ∨ c = .post headers body)
      (fetch platform rawUrl headers body) := by
  unfold fetch
  split
  · exact Handler.every_throw _
  · refine Handler.Every.bind (send_posts _ headers body) fun response => ?_
    split
    · exact send_posts _ headers body
    · exact Handler.every_pure _

theorem clockReads_cons {c : sig.Cmd} {r : sig.Ans c} {t : Transcript sig} (hc : c ≠ .dateNow) :
    clockReads (⟨c, r⟩ :: t) = clockReads t := by
  cases c with
  | dateNow => exact absurd rfl hc
  | lookup | connect | post => rfl

end Sent

/-- Whatever is answered in an attempt, what is sent is signed, with the time of the attempt. -/
theorem attemptDelivery_signed (platform : Platform) (H : String → String → Digest)
    (job : WebhookJobData) : (attemptDelivery (platform.withHmac H) job).run.Follows
      (SendsSigned platform H job) (fun _ _ => True) [] := by
  have htriple : Handler.Triple (SendsSigned platform H job) (fun t => clockReads t = [])
      (attemptDelivery (platform.withHmac H) job) (fun _ _ => True) fun _ _ => True := by
    refine Handler.Triple.bind (Q := fun _ t => clockReads t = [])
      ((Handler.Triple.of_every (isSafeWebhookTarget_checks _) ?_ ?_).conseq (fun _ h => h)
        (fun _ _ h => h) fun _ _ _ => trivial) fun ssrf => ?_
    · intro t c ht hc
      cases c <;> trivial
    · intro t c r ht hc
      rwa [clockReads_cons (by rintro rfl; cases hc)]
    · split
      · refine Handler.Triple.bind (Q := fun now t => clockReads t = [now]) ?_ fun now => ?_
        · refine Program.Triple.call (fun _ _ => trivial) fun t r ht => ?_
          cases r with
          | ok now => exact congrArg (now :: ·) ht
          | error err => trivial
        · refine Handler.Triple.tryCatch (F := fun _ _ => True) (Handler.Triple.map _
            ((Handler.Triple.of_every (fetch_posts _ _ _) ?_ ?_).conseq (fun _ h => h)
              (fun _ _ _ => trivial) fun _ _ _ => trivial)) fun _ => .pure fun _ _ => trivial
          · rintro t c ht (hc | rfl)
            · cases c <;> trivial
            · exact ⟨now, ht, signed_webhookBody now⟩
          · rintro t c r ht (hc | rfl)
            · rwa [clockReads_cons (by rintro rfl; cases hc)]
            · exact ht
      · exact .pure fun _ _ => trivial
  exact (htriple [] rfl).mono (fun _ _ h => h) fun _ _ _ => trivial

end CloudMesh.Webhooks
