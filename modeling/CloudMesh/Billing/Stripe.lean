import CloudMesh.Errors
import CloudMesh.Json
import CloudMesh.Rows
import CloudMesh.Sdk.Numbers

/-!
# Stripe's signatures

`verifyWebhookSignature` of `apps/api/src/providers/stripe.ts`. HMAC-SHA256 is any function from a
secret and a message to 32 bytes. The header is a list of elements of which the code keeps the last
one of each key, cut at a second `=`; its timestamp goes through `Number`, whose `NaN` is never
outside the tolerance, and its signature through `Buffer.from`, which stops at the first character
that is not hexadecimal.

## Main definitions

- `fromHex`, `part` — what the code reads of a header
- `verifyWebhookSignature` — the check
- `elements`, `timesWithin`, `spelled` — what the header says
- `verifies_iff` — the headers on which the check decides what the header says
-/

/-! ## One value of an oracle

A check that compares one value of an unknown function with one digest, where some value of the
function on a set is to be in a set of digests. -/

namespace Oracle

variable {M D : Type} {times : Set M} {digests : Set D}

/-- What is compared is all there is; without a comparison, there is nothing to find. -/
def Agrees (pick : Option (M × D)) (times : Set M) (digests : Set D) : Prop :=
  match pick with
  | some (t, d) => times = {t} ∧ digests = {d}
  | none => times = ∅ ∨ digests = ∅

theorem forall_some_iff [DecidableEq M] [Nontrivial D] {t : M} {d : D} :
    (∀ H : M → D, H t = d ↔ ∃ s ∈ times, H s ∈ digests) ↔ times = {t} ∧ digests = {d} := by
  constructor
  · intro h
    obtain ⟨other, hother⟩ := exists_ne d
    -- Everywhere but at `t` the function has the digest that is compared with.
    have hd : d ∈ digests := by
      obtain ⟨s, -, hs⟩ := (h fun _ => d).mp rfl
      exact hs
    have honly : ∀ s ∈ times, s = t := by
      intro s hs
      by_contra hne
      have hat := (h (Function.update (fun _ => d) t other)).mpr
        ⟨s, hs, by rwa [Function.update_of_ne hne]⟩
      rw [Function.update_self] at hat
      exact hother hat
    have ht : t ∈ times := by
      obtain ⟨s, hs, -⟩ := (h fun _ => d).mp rfl
      exact honly s hs ▸ hs
    refine ⟨Set.eq_singleton_iff_unique_mem.mpr ⟨ht, honly⟩,
      Set.eq_singleton_iff_unique_mem.mpr ⟨hd, fun e he => ?_⟩⟩
    exact (h fun _ => e).mpr ⟨t, ht, he⟩
  · rintro ⟨rfl, rfl⟩ H
    simp

theorem forall_not_iff [Nonempty D] :
    (∀ H : M → D, ¬∃ s ∈ times, H s ∈ digests) ↔ times = ∅ ∨ digests = ∅ := by
  constructor
  · intro h
    by_contra hne
    rw [not_or] at hne
    obtain ⟨s, hs⟩ := Set.nonempty_iff_ne_empty.mpr hne.1
    obtain ⟨d, hd⟩ := Set.nonempty_iff_ne_empty.mpr hne.2
    exact h (fun _ => d) ⟨s, hs, hd⟩
  · rintro (rfl | rfl) H ⟨s, hs, hd⟩
    · exact hs
    · exact hd

/-- The comparison decides what it is to decide, whatever the function is, exactly if it compares
all there is. -/
theorem forall_iff [DecidableEq M] [Nontrivial D] (pick : Option (M × D)) :
    (∀ H : M → D, (∃ p ∈ pick, H p.1 = p.2) ↔ ∃ s ∈ times, H s ∈ digests) ↔
      Agrees pick times digests := by
  cases pick with
  | none =>
    rw [Agrees, ← forall_not_iff]
    simp
  | some p =>
    obtain ⟨t, d⟩ := p
    rw [Agrees, ← forall_some_iff]
    simp

end Oracle

namespace CloudMesh.Stripe

/-! ## Hexadecimal texts -/

def toHexUnit (n : ℕ) : UInt16 := UInt16.ofNat (hexDigit n).toNat

/-- `digest("hex")`. -/
def toHex (bytes : List UInt8) : JsString :=
  bytes.flatMap fun byte => [toHexUnit (byte.toNat / 16), toHexUnit (byte.toNat % 16)]

/-- The digit that `Buffer.from` sees in a code unit, of which it looks at the low byte. -/
def ofHexUnit (unit : UInt16) : Option ℕ := Json.hexDigitOf (Char.ofNat (unit.toNat % 256))

/-- `Buffer.from(s, "hex")`: what follows the first pair that is not hexadecimal is left out. -/
def fromHex : JsString → List UInt8
  | high :: low :: s =>
    match ofHexUnit high, ofHexUnit low with
    | some h, some l => UInt8.ofNat (16 * h + l) :: fromHex s
    | _, _ => []
  | _ => []

/-- Hexadecimal digits, two for each byte. -/
def IsHexText (s : JsString) : Prop :=
  s.length % 2 = 0 ∧ ∀ unit ∈ s, (Json.hexDigitOf (Char.ofNat unit.toNat)).isSome

/-! ## The header -/

/-- `Object.fromEntries` gets a pair of the first two parts of `kv.split("=")`. -/
def entry (kv : JsString) : JsString × Option JsString :=
  match kv.splitOn 0x3D with
  | k :: v :: _ => (k, some v)
  | [k] => (k, none)
  | [] => ([], none)

/-- `parts[key]`: the last entry of a key wins. -/
def part (header : JsString) (key : String) : Option JsString :=
  (((header.splitOn 0x2C).map entry).reverse.lookup (utf16 key)).join

/-- A string that `!s` does not refuse. -/
def present (s : Option JsString) : Option JsString := s.filter (· ≠ [])

/-! ## The check -/

abbrev Digest := { bytes : List UInt8 // bytes.length = 32 }

instance : Nontrivial Digest :=
  ⟨⟨List.replicate 32 0, rfl⟩, ⟨List.replicate 32 1, rfl⟩, by decide⟩

structure StripeAdapterConfig where
  webhookSecret : Option String

inductive WebhookError
  | provider (err : AppError)
  | syntaxError

def stripeError (message : String) (statusCode : ℕ) : WebhookError :=
  .provider ⟨.provider "stripe", statusCode, message, "PROVIDER_ERROR", []⟩

/-- `JSON.parse(rawBody)`. -/
def parseBody (rawBody : String) : Except WebhookError Json :=
  match Json.parse rawBody.toList with
  | some event => .ok event
  | none => .error .syntaxError

/-- `now - n`. -/
def subtracted (now : ℚ) : Sdk.Numeric → Sdk.Numeric
  | .nan => .nan
  | .infinity negative => .infinity !negative
  | .finite x => .ofRat (now - x)

/-- `Math.abs(n) > bound`. -/
def exceeds (bound : ℚ) : Sdk.Numeric → Bool
  | .nan => false
  | .infinity _ => true
  | .finite x => bound < |x|

def isOutside (now toleranceSeconds : ℚ) (timestamp : Sdk.Numeric) : Bool :=
  exceeds toleranceSeconds (subtracted now timestamp)

/-- The message that is signed. -/
def signedMessage (timestamp : JsString) (rawBody : String) : JsString :=
  timestamp ++ utf16 "." ++ utf16 rawBody

/-- `H secret message` is the HMAC of the message. -/
def verifyWebhookSignature (config : StripeAdapterConfig) (H : String → JsString → Digest)
    (rawBody : String) (signatureHeader : Option JsString) (toleranceSeconds now : ℚ) :
    Except WebhookError Json :=
  match config.webhookSecret.filter (· ≠ "") with
  | none =>
    .error (stripeError
      "Stripe webhook secret is not configured (missing STRIPE_WEBHOOK_SECRET)" 500)
  | some webhookSecret =>
    match present signatureHeader with
    | none => .error (stripeError "Missing Stripe-Signature header" 401)
    | some header =>
      match present (part header "t"), present (part header "v1") with
      | some timestamp, some signature =>
        -- a timestamp that is no number is not outside
        if isOutside now toleranceSeconds (Sdk.number (ofUtf16 timestamp)) then
          .error (stripeError "Stripe webhook timestamp outside tolerance (possible replay)" 401)
        else
          let expected := toHex (H webhookSecret (signedMessage timestamp rawBody)).val
          let expectedBuf := fromHex expected
          let actualBuf := fromHex signature
          -- `timingSafeEqual` throws on buffers of two lengths
          if expectedBuf.length = actualBuf.length ∧ expectedBuf = actualBuf then
            parseBody rawBody
          else .error (stripeError "Stripe webhook signature verification failed" 401)
      | _, _ => .error (stripeError "Malformed Stripe-Signature header" 401)

/-! ## What the header says -/

/-- The elements `key=value` of a header. -/
def elements (header : JsString) : List (JsString × JsString) :=
  (header.splitOn 0x2C).filterMap fun kv =>
    if 0x3D ∈ kv then some (kv.takeWhile (· ≠ 0x3D), (kv.dropWhile (· ≠ 0x3D)).tail) else none

/-- The number of a timestamp; what is blank is none. -/
def numberOf (timestamp : JsString) : Option ℚ :=
  if trim (ofUtf16 timestamp) = [] then none
  else
    match Sdk.number (ofUtf16 timestamp) with
    | .finite x => some x
    | _ => none

/-- The timestamps that are numbers within the tolerance. -/
def timesWithin (header : JsString) (tolerance now : ℚ) : Set JsString :=
  {t | (utf16 "t", t) ∈ elements header ∧ ∃ x, numberOf t = some x ∧ |now - x| ≤ tolerance}

/-- The digests that `v1` elements spell. -/
def spelled (header : JsString) : Set Digest :=
  {d | ∃ v, (utf16 "v1", v) ∈ elements header ∧ IsHexText v ∧ fromHex v = d.val}

/-- Some timestamp within the tolerance is signed by some `v1` element. -/
def Signed (H : String → JsString → Digest) (secret rawBody : String) (header : JsString)
    (tolerance now : ℚ) : Prop :=
  ∃ t ∈ timesWithin header tolerance now, H secret (signedMessage t rawBody) ∈ spelled header

/-- What is signed gets past the checks; anything else is answered with the 401 error. A header
that is missing is an empty one. -/
structure Verifies (H : String → JsString → Digest) (secret rawBody : String)
    (signatureHeader : Option JsString) (tolerance now : ℚ) : Prop where
  passes : Signed H secret rawBody (signatureHeader.getD []) tolerance now →
    verifyWebhookSignature ⟨some secret⟩ H rawBody signatureHeader tolerance now =
      parseBody rawBody
  refuses : ¬Signed H secret rawBody (signatureHeader.getD []) tolerance now →
    ∃ message, verifyWebhookSignature ⟨some secret⟩ H rawBody signatureHeader tolerance now =
      .error (stripeError message 401)

def digestOf (bytes : List UInt8) : Option Digest :=
  if h : bytes.length = 32 then some ⟨bytes, h⟩ else none

/-- The last timestamp and what the last `v1` entry decodes to, if the code compares them with
anything that a digest can be. -/
def lastPair (header : JsString) (tolerance now : ℚ) : Option (JsString × Digest) :=
  match present (part header "t"), present (part header "v1") with
  | some timestamp, some signature =>
    if isOutside now tolerance (Sdk.number (ofUtf16 timestamp)) then none
    else (digestOf (fromHex signature)).map (timestamp, ·)
  | _, _ => none

/-! ## What the check decides -/

theorem ofHexUnit_toHexUnit {n : ℕ} (h : n < 16) : ofHexUnit (toHexUnit n) = some n := by
  revert n
  decide

theorem fromHex_toHex (bytes : List UInt8) : fromHex (toHex bytes) = bytes := by
  induction bytes with
  | nil => rfl
  | cons byte bytes ih =>
    have hbyte : byte.toNat < 256 := byte.toNat_lt
    have hvalue : 16 * (byte.toNat / 16) + byte.toNat % 16 = byte.toNat := by omega
    have hhigh : ofHexUnit (toHexUnit (byte.toNat / 16)) = some (byte.toNat / 16) :=
      ofHexUnit_toHexUnit (by omega)
    have hlow : ofHexUnit (toHexUnit (byte.toNat % 16)) = some (byte.toNat % 16) :=
      ofHexUnit_toHexUnit (by omega)
    show fromHex (toHexUnit (byte.toNat / 16) :: toHexUnit (byte.toNat % 16) :: toHex bytes) = _
    rw [fromHex, hhigh, hlow]
    dsimp only
    rw [hvalue, ih, UInt8.ofNat_toNat]

theorem digestOf_eq_some_iff {bytes : List UInt8} {d : Digest} :
    digestOf bytes = some d ↔ d.val = bytes := by
  unfold digestOf
  by_cases h : bytes.length = 32
  · rw [dif_pos h, Option.some.injEq]
    constructor
    · rintro rfl
      rfl
    · intro hd
      exact Subtype.ext hd.symm
  · rw [dif_neg h]
    constructor
    · intro hd
      cases hd
    · intro hd
      exact absurd (hd ▸ d.2) h

section Check

variable {H : String → JsString → Digest} {secret rawBody : String}
  {signatureHeader : Option JsString} {tolerance now : ℚ}

theorem lastPair_nil : lastPair [] tolerance now = none := rfl

/-- The HMAC of the last timestamp is what the last `v1` entry decodes to. -/
def Matches (H : String → JsString → Digest) (secret rawBody : String)
    (pair : Option (JsString × Digest)) : Prop :=
  ∃ p ∈ pair, H secret (signedMessage p.1 rawBody) = p.2

theorem not_matches_none : ¬Matches H secret rawBody none := by
  rintro ⟨p, hp, -⟩
  cases hp

theorem matches_digestOf_iff (timestamp : JsString) (bytes : List UInt8) :
    Matches H secret rawBody ((digestOf bytes).map (timestamp, ·)) ↔
      (H secret (signedMessage timestamp rawBody)).val = bytes := by
  constructor
  · rintro ⟨p, hp, heq⟩
    obtain ⟨d, hd, rfl⟩ := Option.map_eq_some_iff.mp hp
    rw [heq]
    exact digestOf_eq_some_iff.mp hd
  · intro heq
    exact ⟨(timestamp, _), Option.map_eq_some_iff.mpr ⟨_, digestOf_eq_some_iff.mpr heq, rfl⟩, rfl⟩

/-- The check compares the last timestamp with the last `v1` entry. -/
theorem verify_cases (hsecret : secret ≠ "") :
    (Matches H secret rawBody (lastPair (signatureHeader.getD []) tolerance now) ∧
      verifyWebhookSignature ⟨some secret⟩ H rawBody signatureHeader tolerance now =
        parseBody rawBody) ∨
    (¬Matches H secret rawBody (lastPair (signatureHeader.getD []) tolerance now) ∧
      ∃ message, verifyWebhookSignature ⟨some secret⟩ H rawBody signatureHeader tolerance now =
        .error (stripeError message 401)) := by
  have hconfigured : (some secret).filter (· ≠ "") = some secret := by simp [hsecret]
  unfold verifyWebhookSignature
  simp only [hconfigured]
  cases hheader : present signatureHeader with
  | none =>
    have hempty : signatureHeader.getD [] = [] := by
      cases signatureHeader with
      | none => rfl
      | some header => simpa [present] using hheader
    rw [hempty, lastPair_nil]
    exact .inr ⟨not_matches_none, _, rfl⟩
  | some header =>
    obtain ⟨rfl, -⟩ := Option.filter_eq_some_iff.mp hheader
    simp only [Option.getD_some, lastPair]
    cases present (part header "t") with
    | none => exact .inr ⟨not_matches_none, _, rfl⟩
    | some timestamp =>
      cases present (part header "v1") with
      | none => exact .inr ⟨not_matches_none, _, rfl⟩
      | some signature =>
        by_cases hout : isOutside now tolerance (Sdk.number (ofUtf16 timestamp))
        · simp only [hout, if_true]
          exact .inr ⟨not_matches_none, _, rfl⟩
        · simp only [hout, Bool.false_eq_true, if_false, fromHex_toHex, matches_digestOf_iff]
          by_cases heq : (H secret (signedMessage timestamp rawBody)).val = fromHex signature
          · rw [if_pos ⟨congrArg List.length heq, heq⟩]
            exact .inl ⟨heq, rfl⟩
          · rw [if_neg fun h => heq h.2]
            exact .inr ⟨heq, _, rfl⟩

theorem parseBody_ne_provider (message : String) (statusCode : ℕ) :
    parseBody rawBody ≠ .error (stripeError message statusCode) := by
  unfold parseBody
  intro h
  cases hparse : Json.parse rawBody.toList with
  | none =>
    rw [hparse] at h
    cases h
  | some event =>
    rw [hparse] at h
    cases h

theorem verifies_iff_matches (hsecret : secret ≠ "") :
    Verifies H secret rawBody signatureHeader tolerance now ↔
      (Matches H secret rawBody (lastPair (signatureHeader.getD []) tolerance now) ↔
        Signed H secret rawBody (signatureHeader.getD []) tolerance now) := by
  obtain ⟨hmatches, hpass⟩ | ⟨hmatches, message, hrefused⟩ := @verify_cases H secret rawBody
    signatureHeader tolerance now hsecret
  · rw [iff_true_intro hmatches, true_iff]
    constructor
    · intro h
      by_contra hsigned
      obtain ⟨message, hrefused⟩ := h.refuses hsigned
      exact parseBody_ne_provider message 401 (hpass.symm.trans hrefused)
    · exact fun hsigned => ⟨fun _ => hpass, fun hnot => absurd hsigned hnot⟩
  · rw [iff_false_intro hmatches, false_iff]
    constructor
    · intro h hsigned
      exact parseBody_ne_provider message 401 ((h.passes hsigned).symm.trans hrefused)
    · exact fun hsigned => ⟨fun h => absurd h hsigned, fun _ => ⟨message, hrefused⟩⟩

/-- A timestamp that is no number is never too old. -/
theorem verify_of_nan {header t v : JsString} (hsecret : secret ≠ "")
    (ht : present (part header "t") = some t) (hv : present (part header "v1") = some v)
    (hnan : Sdk.number (ofUtf16 t) = .nan)
    (hmac : (H secret (signedMessage t rawBody)).val = fromHex v) (tolerance now : ℚ) :
    verifyWebhookSignature ⟨some secret⟩ H rawBody (some header) tolerance now =
      parseBody rawBody := by
  have hpair : lastPair header tolerance now = (digestOf (fromHex v)).map (t, ·) := by
    unfold lastPair
    rw [ht, hv]
    simp only [hnan, isOutside, subtracted, exceeds, Bool.false_eq_true, if_false]
  have hmatches : Matches H secret rawBody (lastPair header tolerance now) := by
    rw [hpair]
    exact (matches_digestOf_iff t _).mpr hmac
  obtain ⟨-, hpass⟩ | ⟨hnot, -⟩ := @verify_cases H secret rawBody (some header) tolerance now
    hsecret
  · exact hpass
  · exact absurd hmatches hnot

/-- Every function of the timestamp is the HMAC of the messages of one body. -/
theorem exists_hmac (secret rawBody : String) (f : JsString → Digest) :
    ∃ H : String → JsString → Digest, ∀ t, H secret (signedMessage t rawBody) = f t := by
  refine ⟨fun _ message => f (message.take (message.length - (utf16 rawBody).length - 1)),
    fun t => congrArg f ?_⟩
  have hdot : (utf16 ".").length = 1 := rfl
  have hlength : (signedMessage t rawBody).length - (utf16 rawBody).length - 1 = t.length := by
    simp only [signedMessage, List.length_append, hdot]
    omega
  rw [hlength, signedMessage, List.append_assoc, List.take_left]

end Check

/-- The check decides what the header says, whatever the HMAC is, exactly if the last timestamp is
the only one that is a number within the tolerance and the last `v1` entry decodes to the only
digest that a `v1` element spells; where the last ones are refused before they are compared, there
must be no such timestamp or no such digest. -/
theorem verifies_iff {secret : String} (hsecret : secret ≠ "") (rawBody : String)
    (signatureHeader : Option JsString) (tolerance now : ℚ) :
    (∀ H, Verifies H secret rawBody signatureHeader tolerance now) ↔
      Oracle.Agrees (lastPair (signatureHeader.getD []) tolerance now)
        (timesWithin (signatureHeader.getD []) tolerance now)
        (spelled (signatureHeader.getD [])) := by
  rw [← Oracle.forall_iff]
  constructor
  · intro h f
    obtain ⟨H, hH⟩ := exists_hmac secret rawBody f
    have hverifies := (verifies_iff_matches hsecret).mp (h H)
    unfold Matches Signed at hverifies
    simpa only [hH] using hverifies
  · intro h H
    exact (verifies_iff_matches hsecret).mpr (h fun t => H secret (signedMessage t rawBody))

/-! ## Headers with one timestamp and one signature -/

section Single

variable {entries : List (JsString × JsString)} {t v : JsString} {secret : String}
  {tolerance now x : ℚ}

/-- An element as it is written. -/
def written (e : JsString × JsString) : JsString := e.1 ++ 0x3D :: e.2

def headerOf (entries : List (JsString × JsString)) : JsString :=
  [0x2C].intercalate (entries.map written)

/-- No key and no value has a separator in it. -/
structure Separable (entries : List (JsString × JsString)) : Prop where
  comma : ∀ e ∈ entries, (0x2C : UInt16) ∉ e.1 ∧ (0x2C : UInt16) ∉ e.2
  equals : ∀ e ∈ entries, (0x3D : UInt16) ∉ e.1 ∧ (0x3D : UInt16) ∉ e.2

theorem splitOn_headerOf (h : Separable entries) (hne : entries ≠ []) :
    (headerOf entries).splitOn 0x2C = entries.map written := by
  refine List.splitOn_intercalate _ (fun kv hkv => ?_) fun hnil => hne (List.map_eq_nil_iff.mp hnil)
  obtain ⟨e, he, rfl⟩ := List.mem_map.mp hkv
  obtain ⟨hkey, hvalue⟩ := h.comma e he
  rw [written, List.mem_append, List.mem_cons, not_or, not_or]
  exact ⟨hkey, by decide, hvalue⟩

theorem entry_written {e : JsString × JsString} (hkey : (0x3D : UInt16) ∉ e.1)
    (hvalue : (0x3D : UInt16) ∉ e.2) : entry (written e) = (e.1, some e.2) := by
  rw [entry, written, List.splitOn_append_cons_self_of_not_mem hkey,
    List.splitOn_eq_singleton hvalue]

theorem elements_headerOf (h : Separable entries) (hne : entries ≠ []) :
    elements (headerOf entries) = entries := by
  rw [elements, splitOn_headerOf h hne, List.filterMap_map]
  conv_rhs => rw [← List.filterMap_some (l := entries)]
  refine List.filterMap_congr fun e he => ?_
  obtain ⟨hkey, -⟩ := h.equals e he
  have hall : ∀ unit ∈ e.1, (decide (unit ≠ 0x3D)) = true := fun unit hunit =>
    decide_eq_true fun heq => hkey (heq ▸ hunit)
  have htake : (written e).takeWhile (· ≠ 0x3D) = e.1 := by
    rw [written, List.takeWhile_append_of_pos hall, List.takeWhile_cons_of_neg (by simp),
      List.append_nil]
  have hdrop : (written e).dropWhile (· ≠ 0x3D) = 0x3D :: e.2 := by
    rw [written, List.dropWhile_append_of_pos hall, List.dropWhile_cons_of_neg (by simp)]
  have hmem : (0x3D : UInt16) ∈ written e := List.mem_append_right _ List.mem_cons_self
  simp only [Function.comp_apply, if_pos hmem, htake, hdrop, List.tail_cons]

theorem part_headerOf (h : Separable entries) (hne : entries ≠ []) {key : String} {value : JsString}
    (hkey : ∀ y, (utf16 key, y) ∈ entries ↔ y = value) :
    part (headerOf entries) key = some value := by
  have hentries : (entries.map written).map entry = entries.map fun e => (e.1, some e.2) := by
    rw [List.map_map]
    exact List.map_congr_left fun e he => entry_written (h.equals e he).1 (h.equals e he).2
  have hlookup : ((entries.map fun e => (e.1, some e.2)).reverse).lookup (utf16 key) =
      some (some value) := by
    have hmem : ∀ y, (utf16 key, y) ∈ (entries.map fun e => (e.1, some e.2)).reverse ↔
        y = some value := by
      intro y
      rw [List.mem_reverse, List.mem_map]
      constructor
      · rintro ⟨e, he, heq⟩
        obtain ⟨hfst, hsnd⟩ := Prod.mk.inj heq
        rw [← hsnd, (hkey e.2).mp (hfst ▸ he)]
      · rintro rfl
        exact ⟨(utf16 key, value), (hkey value).mpr rfl, rfl⟩
    exact lookup_of_forall_mem ((hmem _).mpr rfl) fun y hy => (hmem y).mp hy
  rw [part, splitOn_headerOf h hne, hentries, hlookup]
  rfl

theorem number_of_numberOf (h : numberOf t = some x) :
    present (some t) = some t ∧ Sdk.number (ofUtf16 t) = .finite x := by
  unfold numberOf at h
  by_cases hblank : trim (ofUtf16 t) = []
  · rw [if_pos hblank] at h
    cases h
  · rw [if_neg hblank] at h
    have hne : t ≠ [] := by
      rintro rfl
      exact hblank rfl
    refine ⟨Option.filter_eq_some_iff.mpr ⟨rfl, decide_eq_true hne⟩, ?_⟩
    split at h
    · rename_i y hy
      cases h
      exact hy
    · cases h

theorem lastPair_of_part {header : JsString} (ht : part header "t" = some t)
    (hv : part header "v1" = some v) (hnumber : numberOf t = some x) :
    lastPair header tolerance now =
      if isOutside now tolerance (.finite x) then none
      else (digestOf (fromHex v)).map (t, ·) := by
  obtain ⟨hpresent, hfinite⟩ := number_of_numberOf hnumber
  unfold lastPair
  rw [ht, hv, hpresent]
  by_cases hnil : v = []
  · subst hnil
    have hdigest : digestOf (fromHex []) = none := rfl
    have hnone : present (some []) = none := rfl
    rw [hdigest, hnone, Option.map_none, ite_self]
  · have hsome : present (some v) = some v :=
      Option.filter_eq_some_iff.mpr ⟨rfl, decide_eq_true hnil⟩
    rw [hsome]
    simp only [hfinite]

theorem spelled_headerOf (h : Separable entries) (hne : entries ≠ [])
    (hv : ∀ y, (utf16 "v1", y) ∈ entries ↔ y = v) (hhex : IsHexText v) :
    spelled (headerOf entries) = {d | digestOf (fromHex v) = some d} := by
  ext d
  rw [spelled, elements_headerOf h hne]
  simp only [Set.mem_ofPred_eq, hv, digestOf_eq_some_iff]
  constructor
  · rintro ⟨y, rfl, -, hy⟩
    exact hy.symm
  · intro hd
    exact ⟨v, rfl, hhex, hd.symm⟩

theorem timesWithin_headerOf (h : Separable entries) (hne : entries ≠ [])
    (ht : ∀ y, (utf16 "t", y) ∈ entries ↔ y = t) (hnumber : numberOf t = some x) :
    timesWithin (headerOf entries) tolerance now = {y | y = t ∧ |now - x| ≤ tolerance} := by
  ext y
  rw [timesWithin, elements_headerOf h hne]
  simp only [Set.mem_ofPred_eq, ht]
  constructor
  · rintro ⟨rfl, z, hz, hnear⟩
    cases hnumber.symm.trans hz
    exact ⟨rfl, hnear⟩
  · rintro ⟨rfl, hnear⟩
    exact ⟨rfl, x, hnumber, hnear⟩

/-- What the code compares is all that the header says. Other elements do not matter, whatever their
keys are and wherever they stand. The difference of the times is to be a double. -/
theorem agrees_headerOf (h : Separable entries) (ht : ∀ y, (utf16 "t", y) ∈ entries ↔ y = t)
    (hv : ∀ y, (utf16 "v1", y) ∈ entries ↔ y = v) (hnumber : numberOf t = some x)
    (hexact : Sdk.Numeric.ofRat (now - x) = .finite (now - x)) (hhex : IsHexText v) :
    Oracle.Agrees (lastPair (headerOf entries) tolerance now)
      (timesWithin (headerOf entries) tolerance now) (spelled (headerOf entries)) := by
  have hne : entries ≠ [] := List.ne_nil_of_mem ((ht t).mpr rfl)
  have houtside : isOutside now tolerance (.finite x) = decide (tolerance < |now - x|) := by
    rw [isOutside, subtracted, hexact, exceeds]
  rw [lastPair_of_part (part_headerOf h hne ht) (part_headerOf h hne hv) hnumber, houtside,
    spelled_headerOf h hne hv hhex, timesWithin_headerOf h hne ht hnumber]
  by_cases hout : tolerance < |now - x|
  · simp only [hout, decide_true, if_true]
    refine .inl (Set.eq_empty_of_forall_notMem fun y hy => ?_)
    exact absurd hy.2 (not_le.mpr hout)
  · simp only [hout, decide_false, Bool.false_eq_true, if_false]
    cases hdigest : digestOf (fromHex v) with
    | none =>
      refine .inr (Set.eq_empty_of_forall_notMem fun d hd => ?_)
      cases hd
    | some d =>
      refine ⟨?_, ?_⟩
      · ext y
        simp [not_lt.mp hout]
      · ext e
        simp [eq_comm]

/-- A header with one timestamp and one signature is verified. -/
theorem verifies_single (H : String → JsString → Digest) (hsecret : secret ≠ "")
    (rawBody : String) (h : Separable entries) (ht : ∀ y, (utf16 "t", y) ∈ entries ↔ y = t)
    (hv : ∀ y, (utf16 "v1", y) ∈ entries ↔ y = v) (hnumber : numberOf t = some x)
    (hexact : Sdk.Numeric.ofRat (now - x) = .finite (now - x)) (hhex : IsHexText v) :
    Verifies H secret rawBody (some (headerOf entries)) tolerance now :=
  (verifies_iff_matches hsecret).mpr
    ((Oracle.forall_iff _).mpr (agrees_headerOf h ht hv hnumber hexact hhex)
      fun t => H secret (signedMessage t rawBody))

end Single

def zeros : Digest := ⟨List.replicate 32 0, rfl⟩

/-- A timestamp, an older scheme and a signature. -/
def webhookEntries : List (JsString × JsString) :=
  [(utf16 "t", utf16 "1700000000"), (utf16 "v0", utf16 "00"),
    (utf16 "v1", List.replicate 64 0x30)]

theorem isHexText_zeros : IsHexText (List.replicate 64 0x30) := by
  refine ⟨by decide, fun unit hunit => ?_⟩
  rw [List.eq_of_mem_replicate hunit]
  decide

theorem verifies_iff_webhook : Verifies (fun _ _ => zeros) "whsec" "\x7b\x7d"
    (some (headerOf webhookEntries)) 300 1700000060 := by
  have hkeys : utf16 "t" ≠ utf16 "v0" ∧ utf16 "t" ≠ utf16 "v1" ∧ utf16 "v1" ≠ utf16 "v0" := by
    decide
  have ht : ∀ y, (utf16 "t", y) ∈ webhookEntries ↔ y = utf16 "1700000000" := fun y => by
    simp [webhookEntries, hkeys]
  have hv : ∀ y, (utf16 "v1", y) ∈ webhookEntries ↔ y = List.replicate 64 0x30 := fun y => by
    simp [webhookEntries, hkeys, hkeys.2.1.symm, -List.reduceReplicate]
  have hagrees : Oracle.Agrees (lastPair (headerOf webhookEntries) 300 1700000060)
      (timesWithin (headerOf webhookEntries) 300 1700000060)
      (spelled (headerOf webhookEntries)) :=
    agrees_headerOf ⟨by decide, by decide⟩ ht hv (x := 1700000000) (by decide +kernel)
      (by decide +kernel) isHexText_zeros
  exact (verifies_iff (by decide) _ (some (headerOf webhookEntries)) 300 1700000060).mpr hagrees _

/-- While a secret is rolled, the header carries a signature for each of the two. -/
theorem verifies_fails : ¬∀ H secret rawBody signatureHeader tolerance now, secret ≠ "" →
    Verifies H secret rawBody signatureHeader tolerance now := by
  intro h
  let header := utf16 "t=1700000000,v1=" ++ List.replicate 64 0x30 ++ utf16 ",v1=" ++
    List.replicate 64 0x31
  have hpair : lastPair header 300 1700000000 =
      some (utf16 "1700000000", ⟨List.replicate 32 0x11, rfl⟩) := by decide +kernel
  have hverifies := (verifies_iff_matches (by decide)).mp
    (h (fun _ _ => zeros) "whsec" "{}" (some header) 300 1700000000 (by decide))
  have hsigned : Signed (fun _ _ => zeros) "whsec" "{}" header 300 1700000000 := by
    refine ⟨utf16 "1700000000", ⟨by decide +kernel, 1700000000, by decide +kernel, by norm_num⟩,
      List.replicate 64 0x30, by decide, isHexText_zeros, by decide⟩
  obtain ⟨p, hp, heq⟩ := hverifies.mpr hsigned
  rw [Option.getD_some, hpair] at hp
  cases hp
  revert heq
  decide

end CloudMesh.Stripe
