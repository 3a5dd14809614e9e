import CloudMesh.JsonText
import CloudMesh.Streams.Base64
import CloudMesh.Streams.Utf8

/-!
# The session cookie

`lib/sessionCrypto.ts` of the dashboard. AES-256-GCM is ideal: it opens what it has encrypted
itself, and nothing else. What it protects is the bytes; a token is four texts between dots, and
three of them are read by a decoder that reads many texts as the same bytes.

## Main definitions

- `Gcm`, `Gcm.decipher` — the cipher, and what it opens
- `encryptSession`, `decryptSession` — the code
- `Returned` — a token that `encryptSession` has returned
- `authentic_iff` — the accepted tokens that have been returned
-/

namespace CloudMesh.Auth.SessionCrypto

open Streams

/-! ## What is relied on -/

def ivLength : ℕ := 12

def authTagLength : ℕ := 16

abbrev Key := { bytes : List UInt8 // bytes.length = 32 }

abbrev Iv := { bytes : List UInt8 // bytes.length = ivLength }

inductive Thrown
  | error (message : String)
  deriving DecidableEq

/-- The ciphertext and its tag, from which the plaintext can be told. -/
structure Gcm where
  cipher (key : Key) (iv plaintext : List UInt8) : List UInt8 × List UInt8
  length_authTag : ∀ key iv plaintext, (cipher key iv plaintext).2.length = authTagLength
  cipher_injective : ∀ key iv, Function.Injective (cipher key iv)

/-- What has been encrypted under a key. -/
structure Sealed where
  key : Key
  iv : List UInt8
  plaintext : List UInt8

/-- `final` throws unless the ciphertext and the tag are those of something that has been
encrypted. -/
def Gcm.decipher (gcm : Gcm) (log : List Sealed) (key : Key)
    (iv authTag ciphertext : List UInt8) : Except Thrown (List UInt8) :=
  match log.find? fun r =>
      r.key = key ∧ r.iv = iv ∧ gcm.cipher key iv r.plaintext = (ciphertext, authTag) with
  | some r => .ok r.plaintext
  | none => .error (.error "Unsupported state or unable to authenticate data")

/-- The characters of a string, with a replacement for half a character. -/
def half (unit : UInt16) : Char :=
  if 0xD800 ≤ unit.toNat ∧ unit.toNat < 0xE000 then Utf8.replacement else Char.ofNat unit.toNat

def wellFormed : JsString → List Char
  | high :: low :: s =>
    if 0xD800 ≤ high.toNat ∧ high.toNat < 0xDC00 ∧ 0xDC00 ≤ low.toNat ∧ low.toNat < 0xE000 then
      Char.ofNat (0x10000 + (high.toNat - 0xD800) * 0x400 + (low.toNat - 0xDC00)) :: wellFormed s
    else half high :: wellFormed (low :: s)
  | [unit] => [half unit]
  | [] => []

/-- `toString("utf8")`: a character that has been begun is replaced as well. -/
def utf8Text (bytes : List UInt8) : String :=
  let (text, state) := scan Utf8.step Utf8.start bytes
  String.ofList (if state.needed = 0 then text else text ++ [Utf8.replacement])

def timingSafeEqual (a b : List UInt8) : Except Thrown Bool :=
  if a.length = b.length then .ok (a = b)
  else .error (.error "Input buffers must have the same byte length")

/-! ## `sessionCrypto.ts` -/

def version : JsString := utf16 "v1"

section Code

variable (gcm : Gcm) (sha256 : List UInt8 → Key)

/-- The length is counted in code units. -/
def getKey (sessionSecret : Option String) : Except Thrown Key :=
  match sessionSecret.filter fun secret => secret ≠ "" ∧ 32 ≤ (utf16 secret).length with
  | some secret => .ok (sha256 (Utf8.encode secret.toList))
  | none =>
    .error (.error ("SESSION_SECRET must be set to at least 32 characters to encrypt the " ++
      "dashboard session cookie. Generate one with: openssl rand -base64 48"))

/-- `v1.<iv>.<authTag>.<ciphertext>`; the `iv` has been drawn. -/
def encryptSession (sessionSecret : Option String) (iv : Iv) (plaintext : String) :
    Except Thrown JsString := do
  let key ← getKey sha256 sessionSecret
  let (ciphertext, authTag) := gcm.cipher key iv.1 (Utf8.encode plaintext.toList)
  pure ((utf16 ".").intercalate
    [version, Base64.encode iv.1, Base64.encode authTag, Base64.encode ciphertext])

/-- Whether a token is of this version. -/
def isVersion (tokenVersion : JsString) : Except Thrown Bool :=
  let versionBuf := Utf8.encode (wellFormed tokenVersion)
  let expectedBuf := Utf8.encode (wellFormed version)
  if versionBuf.length ≠ expectedBuf.length then pure false
  else timingSafeEqual versionBuf expectedBuf

/-- What is tried. The cipher knows what has been encrypted before. -/
def openParts (records : List Sealed) (sessionSecret : Option String)
    (ivB64 authTagB64 ciphertextB64 : JsString) : Except Thrown (Option String) := do
  let iv := Base64.decode ivB64
  let authTag := Base64.decode authTagB64
  let ciphertext := Base64.decode ciphertextB64
  if iv.length ≠ ivLength ∨ authTag.length ≠ authTagLength then pure none
  else
    let key ← getKey sha256 sessionSecret
    let plaintext ← gcm.decipher records key iv authTag ciphertext
    pure (some (utf8Text plaintext))

def decryptSession (records : List Sealed) (sessionSecret : Option String) (token : JsString) :
    Except Thrown (Option String) :=
  match split 0x2E token with
  | [tokenVersion, ivB64, authTagB64, ciphertextB64] => do
    if ← isVersion tokenVersion then
      -- the caller only learns that there is no session
      tryCatch (openParts gcm sha256 records sessionSecret ivB64 authTagB64 ciphertextB64)
        fun _ => pure none
    else pure none
  | _ => pure none

end Code

/-! ## What has been returned -/

/-- A call of `encryptSession`. -/
structure Call where
  sessionSecret : Option String
  iv : Iv
  plaintext : String

section Calls

variable (gcm : Gcm) (sha256 : List UInt8 → Key)

/-- What the call has encrypted, unless it has thrown. -/
def Call.sealed (call : Call) : Option Sealed :=
  match getKey sha256 call.sessionSecret with
  | .ok key => some ⟨key, call.iv.1, Utf8.encode call.plaintext.toList⟩
  | .error _ => none

def log (calls : List Call) : List Sealed := calls.filterMap (Call.sealed sha256)

/-- `encryptSession` has returned the token for the plaintext under the secret. -/
def Returned (calls : List Call) (secret plaintext : String) (token : JsString) : Prop :=
  ∃ call ∈ calls, call.sessionSecret = some secret ∧ call.plaintext = plaintext ∧
    encryptSession gcm sha256 call.sessionSecret call.iv call.plaintext = .ok token

end Calls

/-- The parts after the version are written as the encoder writes. -/
def CanonicalToken (token : JsString) : Prop :=
  ∀ part ∈ (split 0x2E token).tail, Base64.Canonical part

/-! ## The version -/

section Version

theorem half_ne {unit : UInt16} {c : Char} (hc : c.toNat < 0x80) (h : half unit = c) :
    unit = UInt16.ofNat c.toNat := by
  have hunit := unit.toNat_lt
  unfold half at h
  split at h
  · subst h
    exact absurd hc (by decide)
  · rw [← h, toNat_charOfNat (by unfold Nat.isValidChar; omega), UInt16.ofNat_toNat]

/-- Only ASCII is read as ASCII. -/
theorem eq_of_wellFormed {s : JsString} {text : List Char} (htext : ∀ c ∈ text, c.toNat < 0x80)
    (h : wellFormed s = text) : s = text.map fun c => UInt16.ofNat c.toNat := by
  induction s using wellFormed.induct generalizing text with
  | case1 high low s hpair ih =>
    -- a pair is a character from 0x10000 on
    rw [wellFormed, if_pos hpair] at h
    subst h
    have hfirst := htext _ List.mem_cons_self
    rw [toNat_charOfNat (by unfold Nat.isValidChar; omega)] at hfirst
    omega
  | case2 high low s hpair ih =>
    rw [wellFormed, if_neg hpair] at h
    subst h
    rw [List.map_cons, ← half_ne (htext _ List.mem_cons_self) rfl,
      ← ih (fun c hc => htext c (List.mem_cons_of_mem _ hc)) rfl]
  | case3 unit =>
    rw [wellFormed] at h
    subst h
    rw [List.map_singleton, ← half_ne (htext _ List.mem_cons_self) rfl]
  | case4 =>
    subst h
    rfl

theorem encode_version_iff {s : JsString} :
    Utf8.encode (wellFormed s) = Utf8.encode (wellFormed version) ↔ s = version := by
  refine ⟨fun h => ?_, fun h => h ▸ rfl⟩
  have hversion : wellFormed version = ['v', '1'] := by decide
  have hascii : ∀ c ∈ ['v', '1'], c.toNat < 0x80 := by simp
  have heq := Utf8.encode_injective h
  rw [hversion] at heq
  exact eq_of_wellFormed hascii heq

theorem isVersion_eq (s : JsString) : isVersion s = .ok (decide (s = version)) := by
  by_cases hs : s = version
  · subst hs
    rfl
  · have hne := mt encode_version_iff.mp hs
    rw [decide_eq_false hs]
    unfold isVersion
    dsimp only
    split
    · rfl
    · next hlength =>
      rw [timingSafeEqual, if_pos (not_not.mp hlength), decide_eq_false hne]

end Version

/-! ## The parts -/

section Parts

variable {gcm : Gcm} {sha256 : List UInt8 → Key} {records : List Sealed} {key : Key}
  {iv authTag ciphertext bytes : List UInt8} {sessionSecret : Option String}
  {token ivB64 authTagB64 ciphertextB64 : JsString}

/-- The cipher opens what is in its log. -/
theorem decipher_eq_ok_iff : gcm.decipher records key iv authTag ciphertext = .ok bytes ↔
    ⟨key, iv, bytes⟩ ∈ records ∧ gcm.cipher key iv bytes = (ciphertext, authTag) := by
  unfold Gcm.decipher
  constructor
  · intro h
    split at h
    · next r hfind =>
      cases h
      have hfound := List.find?_some hfind
      rw [decide_eq_true_iff] at hfound
      obtain ⟨rfl, rfl, hcipher⟩ := hfound
      exact ⟨List.mem_of_find?_eq_some hfind, hcipher⟩
    · cases h
  · rintro ⟨hmem, hcipher⟩
    split
    · next r hfind =>
      -- the record that is found need not be this one, but its plaintext is
      have hfound := List.find?_some hfind
      rw [decide_eq_true_iff] at hfound
      rw [gcm.cipher_injective key iv (hfound.2.2.trans hcipher.symm)]
    · next hfind =>
      have hnone := List.find?_eq_none.mp hfind _ hmem
      exact absurd (decide_eq_true ⟨rfl, rfl, hcipher⟩) hnone

theorem utf8Text_encode (text : String) : utf8Text (Utf8.encode text.toList) = text := by
  simp only [utf8Text, Utf8.scan_step_encode]
  exact String.ofList_toList

/-- Texts without dots are found again between the dots. -/
theorem split_parts (hiv : 0x2E ∉ ivB64) (htag : 0x2E ∉ authTagB64) (htext : 0x2E ∉ ciphertextB64) :
    split 0x2E ((utf16 ".").intercalate [version, ivB64, authTagB64, ciphertextB64]) =
      [version, ivB64, authTagB64, ciphertextB64] := by
  have hversion : (0x2E : UInt16) ∉ version := by decide
  refine split_intercalate (List.cons_ne_nil _ _) ?_
  simp only [List.forall_mem_cons]
  exact ⟨hversion, hiv, htag, htext, fun _ h => nomatch h⟩

theorem getKey_eq_ok {secret : String} (h : 32 ≤ (utf16 secret).length) :
    getKey sha256 (some secret) = .ok (sha256 (Utf8.encode secret.toList)) := by
  have hne : secret ≠ "" := by
    rintro rfl
    exact absurd h (by decide)
  have hfilter : (some secret).filter (fun secret => secret ≠ "" ∧ 32 ≤ (utf16 secret).length) =
      some secret := Option.filter_eq_some_iff.mpr ⟨rfl, decide_eq_true ⟨hne, h⟩⟩
  rw [getKey, hfilter]

/-- Whatever the token is, an error is caught. -/
theorem decryptSession_eq (gcm : Gcm) (sha256 : List UInt8 → Key) (records : List Sealed)
    (sessionSecret : Option String) (token : JsString) :
    decryptSession gcm sha256 records sessionSecret token = .ok
      (match split 0x2E token with
        | [tokenVersion, ivB64, authTagB64, ciphertextB64] =>
          if tokenVersion = version then
            match openParts gcm sha256 records sessionSecret ivB64 authTagB64 ciphertextB64 with
            | .ok result => result
            | .error _ => none
          else none
        | _ => none) := by
  unfold decryptSession
  split
  · next tokenVersion ivB64 authTagB64 ciphertextB64 hsplit =>
    rw [isVersion_eq]
    by_cases hversion : tokenVersion = version
    · rw [decide_eq_true hversion, if_pos hversion]
      cases openParts gcm sha256 records sessionSecret ivB64 authTagB64 ciphertextB64 <;> rfl
    · rw [decide_eq_false hversion, if_neg hversion]
      rfl
  · rfl

/-- The parts are opened iff they are of the right lengths and the cipher opens them. -/
theorem openParts_eq_some_iff {plaintext : String} :
    openParts gcm sha256 records sessionSecret ivB64 authTagB64 ciphertextB64 =
        .ok (some plaintext) ↔
      (Base64.decode ivB64).length = ivLength ∧ (Base64.decode authTagB64).length = authTagLength ∧
        ∃ key bytes, getKey sha256 sessionSecret = .ok key ∧
          gcm.decipher records key (Base64.decode ivB64) (Base64.decode authTagB64)
            (Base64.decode ciphertextB64) = .ok bytes ∧ utf8Text bytes = plaintext := by
  unfold openParts
  dsimp only
  split
  · next hlength =>
    refine iff_of_false (fun h => nomatch h) fun h => ?_
    exact hlength.elim (fun hne => hne h.1) fun hne => hne h.2.1
  · next hlength =>
    rw [not_or, not_not, not_not] at hlength
    cases hkey : getKey sha256 sessionSecret with
    | error err => exact iff_of_false (fun h => nomatch h) fun ⟨_, _, _, _, h, _⟩ => nomatch h
    | ok key =>
      change ((gcm.decipher records key (Base64.decode ivB64) (Base64.decode authTagB64)
        (Base64.decode ciphertextB64)) >>= fun bytes => pure (some (utf8Text bytes))) = _ ↔ _
      constructor
      · intro h
        cases hplain : gcm.decipher records key (Base64.decode ivB64) (Base64.decode authTagB64)
          (Base64.decode ciphertextB64) with
        | error err =>
          rw [hplain] at h
          cases h
        | ok bytes =>
          rw [hplain] at h
          exact ⟨hlength.1, hlength.2, key, bytes, rfl, hplain,
            Option.some.inj (Except.ok.inj h)⟩
      · rintro ⟨-, -, key', bytes, hkey', hplain, rfl⟩
        cases hkey'
        rw [hplain]
        rfl

end Parts

section Tokens

variable {gcm : Gcm} {sha256 : List UInt8 → Key} {calls : List Call} {secret plaintext : String}
  {token : JsString}

/-- The token of an encryption. -/
def tokenOf (iv authTag ciphertext : List UInt8) : JsString :=
  (utf16 ".").intercalate
    [version, Base64.encode iv, Base64.encode authTag, Base64.encode ciphertext]

theorem split_tokenOf (iv authTag ciphertext : List UInt8) :
    split 0x2E (tokenOf iv authTag ciphertext) =
      [version, Base64.encode iv, Base64.encode authTag, Base64.encode ciphertext] :=
  split_parts (Base64.dot_notMem_encode _) (Base64.dot_notMem_encode _)
    (Base64.dot_notMem_encode _)

/-- What a call has returned, and what it has left in the log. -/
theorem encryptSession_eq (hlong : 32 ≤ (utf16 secret).length) (iv : Iv) (plaintext : String) :
    encryptSession gcm sha256 (some secret) iv plaintext = .ok
      (tokenOf iv.1
        (gcm.cipher (sha256 (Utf8.encode secret.toList)) iv.1 (Utf8.encode plaintext.toList)).2
        (gcm.cipher (sha256 (Utf8.encode secret.toList)) iv.1
          (Utf8.encode plaintext.toList)).1) := by
  rw [encryptSession, getKey_eq_ok hlong]
  rfl

theorem sealed_eq_some_iff {call : Call} {r : Sealed} : call.sealed sha256 = some r ↔
    getKey sha256 call.sessionSecret = .ok r.key ∧ r.iv = call.iv.1 ∧
      r.plaintext = Utf8.encode call.plaintext.toList := by
  unfold Call.sealed
  obtain ⟨key, iv, bytes⟩ := r
  cases getKey sha256 call.sessionSecret with
  | error err => simp
  | ok key' =>
    simp only [Option.some.injEq, Sealed.mk.injEq, Except.ok.injEq]
    exact ⟨fun ⟨h, h', h''⟩ => ⟨h, h'.symm, h''.symm⟩, fun ⟨h, h', h''⟩ => ⟨h, h'.symm, h''.symm⟩⟩

/-- A token is accepted iff its parts are the bytes of an encryption under the same key. -/
theorem accepted_iff (hlong : 32 ≤ (utf16 secret).length) :
    decryptSession gcm sha256 (log sha256 calls) (some secret) token = .ok (some plaintext) ↔
      ∃ ivB64 authTagB64 ciphertextB64, split 0x2E token =
          [version, ivB64, authTagB64, ciphertextB64] ∧
        ∃ call ∈ calls, getKey sha256 call.sessionSecret =
            .ok (sha256 (Utf8.encode secret.toList)) ∧ call.plaintext = plaintext ∧
          Base64.decode ivB64 = call.iv.1 ∧
          gcm.cipher (sha256 (Utf8.encode secret.toList)) call.iv.1
            (Utf8.encode plaintext.toList) =
              (Base64.decode ciphertextB64, Base64.decode authTagB64) := by
  rw [decryptSession_eq, Except.ok.injEq]
  constructor
  · intro h
    split at h
    · next tokenVersion ivB64 authTagB64 ciphertextB64 hsplit =>
      split at h
      · next hversion =>
        subst hversion
        split at h
        · next result hopen =>
          subst h
          obtain ⟨-, -, key, bytes, hkey, hplain, rfl⟩ := openParts_eq_some_iff.mp hopen
          rw [getKey_eq_ok hlong] at hkey
          cases hkey
          obtain ⟨hmem, hcipher⟩ := decipher_eq_ok_iff.mp hplain
          obtain ⟨call, hcall, hsealed⟩ := List.mem_filterMap.mp hmem
          obtain ⟨hkey, hiv, rfl⟩ := sealed_eq_some_iff.mp hsealed
          refine ⟨ivB64, authTagB64, ciphertextB64, hsplit, call, hcall, hkey,
            (utf8Text_encode _).symm, hiv, ?_⟩
          rw [utf8Text_encode, ← hiv]
          exact hcipher
        · cases h
      · cases h
    · cases h
  · rintro ⟨ivB64, authTagB64, ciphertextB64, hsplit, call, hcall, hkey, rfl, hiv, hcipher⟩
    have hmem : ⟨sha256 (Utf8.encode secret.toList), call.iv.1,
        Utf8.encode call.plaintext.toList⟩ ∈ log sha256 calls :=
      List.mem_filterMap.mpr ⟨call, hcall, sealed_eq_some_iff.mpr ⟨hkey, rfl, rfl⟩⟩
    have htag : (Base64.decode authTagB64).length = authTagLength := by
      have hlength := gcm.length_authTag (sha256 (Utf8.encode secret.toList)) call.iv.1
        (Utf8.encode call.plaintext.toList)
      rwa [hcipher] at hlength
    have hopen : openParts gcm sha256 (log sha256 calls) (some secret) ivB64 authTagB64
        ciphertextB64 = .ok (some call.plaintext) := by
      refine openParts_eq_some_iff.mpr ⟨hiv ▸ call.iv.2, htag, _, _, getKey_eq_ok hlong, ?_,
        utf8Text_encode _⟩
      rw [hiv]
      exact decipher_eq_ok_iff.mpr ⟨hmem, hcipher⟩
    rw [hsplit]
    simp only [if_true, hopen]

/-- No two secrets of the calls have one digest. -/
def Distinct (sha256 : List UInt8 → Key) (calls : List Call) (secret : String) : Prop :=
  ∀ call ∈ calls, ∀ other, call.sessionSecret = some other →
    sha256 (Utf8.encode other.toList) = sha256 (Utf8.encode secret.toList) → other = secret

/-- What has been encrypted is decrypted. -/
theorem decryptSession_of_returned (hlong : 32 ≤ (utf16 secret).length)
    (h : Returned gcm sha256 calls secret plaintext token) :
    decryptSession gcm sha256 (log sha256 calls) (some secret) token = .ok (some plaintext) := by
  obtain ⟨call, hcall, hsecret, rfl, htoken⟩ := h
  rw [hsecret, encryptSession_eq hlong] at htoken
  cases htoken
  refine (accepted_iff hlong).mpr ⟨_, _, _, split_tokenOf _ _ _, call, hcall, ?_, rfl,
    Base64.decode_encode _, ?_⟩
  · rw [hsecret, getKey_eq_ok hlong]
  · rw [Base64.decode_encode, Base64.decode_encode]

/-- A key is the hash of a secret that is long enough. -/
theorem secret_of_getKey {sessionSecret : Option String} {key : Key}
    (h : getKey sha256 sessionSecret = .ok key) :
    ∃ secret, sessionSecret = some secret ∧ 32 ≤ (utf16 secret).length ∧
      sha256 (Utf8.encode secret.toList) = key := by
  unfold getKey at h
  split at h
  · next secret hfilter =>
    obtain ⟨hsecret, hkept⟩ := Option.filter_eq_some_iff.mp hfilter
    exact ⟨secret, hsecret, (of_decide_eq_true hkept).2, Except.ok.inj h⟩
  · cases h

theorem tokenOf_of_split {iv authTag ciphertext : List UInt8}
    (h : split 0x2E token =
      [version, Base64.encode iv, Base64.encode authTag, Base64.encode ciphertext]) :
    token = tokenOf iv authTag ciphertext := by
  rw [← @intercalate_split _ _ 0x2E token, h]
  rfl

/-- Of the accepted tokens, those have been returned that are written as the encoder writes. -/
theorem returned_iff (hlong : 32 ≤ (utf16 secret).length) (hsha : Distinct sha256 calls secret)
    (h : decryptSession gcm sha256 (log sha256 calls) (some secret) token = .ok (some plaintext)) :
    Returned gcm sha256 calls secret plaintext token ↔ CanonicalToken token := by
  constructor
  · rintro ⟨call, -, hsecret, -, htoken⟩
    rw [hsecret, encryptSession_eq hlong] at htoken
    cases htoken
    rw [CanonicalToken, split_tokenOf]
    simp only [List.tail_cons, List.forall_mem_cons]
    exact ⟨Base64.canonical_encode _, Base64.canonical_encode _, Base64.canonical_encode _,
      fun _ hpart => nomatch hpart⟩
  · intro hcanonical
    obtain ⟨ivB64, authTagB64, ciphertextB64, hsplit, call, hcall, hkey, rfl, hiv, hcipher⟩ :=
      (accepted_iff hlong).mp h
    obtain ⟨other, hother, -, hdigest⟩ := secret_of_getKey hkey
    have hsecret : call.sessionSecret = some secret := hother.trans
      (congrArg some (hsha call hcall other hother hdigest))
    rw [CanonicalToken, hsplit] at hcanonical
    simp only [List.tail_cons, List.forall_mem_cons] at hcanonical
    obtain ⟨hcanIv, hcanTag, hcanText, -⟩ := hcanonical
    refine ⟨call, hcall, hsecret, rfl, ?_⟩
    rw [hsecret, encryptSession_eq hlong, hcipher, ← hiv]
    -- canonical parts are what the encoder makes of their own bytes
    refine congrArg Except.ok (tokenOf_of_split ?_).symm
    rw [hsplit, Base64.encode_decode_iff.mpr hcanIv, Base64.encode_decode_iff.mpr hcanTag,
      Base64.encode_decode_iff.mpr hcanText]

/-- The code unit of `=`. -/
def padding : UInt16 := 0x3D

/-- The padding is in the last part. -/
theorem split_padded (iv authTag ciphertext : List UInt8) :
    split 0x2E (tokenOf iv authTag ciphertext ++ [padding]) =
      [version, Base64.encode iv, Base64.encode authTag,
        Base64.encode ciphertext ++ [padding]] := by
  have hlast : (0x2E : UInt16) ∉ Base64.encode ciphertext ++ [padding] := by
    rw [List.mem_append, not_or]
    exact ⟨Base64.dot_notMem_encode _, by decide⟩
  have hjoined : tokenOf iv authTag ciphertext ++ [padding] = (utf16 ".").intercalate
      [version, Base64.encode iv, Base64.encode authTag,
        Base64.encode ciphertext ++ [padding]] := by
    simp only [tokenOf, List.intercalate_cons_cons, List.intercalate_singleton, List.append_assoc]
  rw [hjoined]
  exact split_parts (Base64.dot_notMem_encode _) (Base64.dot_notMem_encode _) hlast

/-- A token with padding at its end is as good as the token. -/
theorem decryptSession_padded (hlong : 32 ≤ (utf16 secret).length)
    (h : Returned gcm sha256 calls secret plaintext token) :
    decryptSession gcm sha256 (log sha256 calls) (some secret) (token ++ [padding]) =
      .ok (some plaintext) ∧ ¬CanonicalToken (token ++ [padding]) := by
  obtain ⟨call, hcall, hsecret, rfl, htoken⟩ := h
  rw [hsecret, encryptSession_eq hlong] at htoken
  cases htoken
  refine ⟨(accepted_iff hlong).mpr ⟨_, _, _, split_padded _ _ _, call, hcall, ?_, rfl,
    Base64.decode_encode _, ?_⟩, fun hcanonical => ?_⟩
  · rw [hsecret, getKey_eq_ok hlong]
  · rw [Base64.decode_encode_append _ rfl, Base64.decode_encode]
  · rw [CanonicalToken, split_padded] at hcanonical
    simp only [List.tail_cons, List.forall_mem_cons] at hcanonical
    obtain ⟨-, -, htext, -⟩ := hcanonical
    have hmem : padding ∈ Base64.encode (gcm.cipher (sha256 (Utf8.encode secret.toList)) call.iv.1
        (Utf8.encode call.plaintext.toList)).1 ++ [padding] :=
      List.mem_append_right _ List.mem_cons_self
    exact Base64.not_canonical_of_mem hmem rfl htext

end Tokens

/-- Whatever has been encrypted is decrypted, nothing makes `decryptSession` throw, and an accepted
token has been returned for its plaintext under the secret iff it is canonical. -/
theorem authentic_iff (gcm : Gcm) (sha256 : List UInt8 → Key) (calls : List Call)
    (secret : String) (hlong : 32 ≤ (utf16 secret).length)
    (hsha : Distinct sha256 calls secret) :
    (∀ call ∈ calls, call.sessionSecret = some secret → ∃ token,
      encryptSession gcm sha256 (some secret) call.iv call.plaintext = .ok token ∧
        decryptSession gcm sha256 (log sha256 calls) (some secret) token =
          .ok (some call.plaintext)) ∧
    (∀ token, ∃ result,
      decryptSession gcm sha256 (log sha256 calls) (some secret) token = .ok result) ∧
    ∀ token plaintext,
      decryptSession gcm sha256 (log sha256 calls) (some secret) token = .ok (some plaintext) →
        (Returned gcm sha256 calls secret plaintext token ↔ CanonicalToken token) := by
  refine ⟨fun call hcall hsecret => ?_, fun token => ⟨_, decryptSession_eq _ _ _ _ _⟩,
    fun token plaintext => returned_iff hlong hsha⟩
  refine ⟨_, encryptSession_eq hlong _ _, decryptSession_of_returned hlong ?_⟩
  exact ⟨call, hcall, hsecret, rfl, hsecret ▸ encryptSession_eq hlong _ _⟩

/-! ### A session, and its token with padding -/

/-- A cipher whose ciphertext is the plaintext. -/
def plainGcm : Gcm where
  cipher _ _ plaintext := (plaintext, List.replicate authTagLength 0)
  length_authTag _ _ _ := List.length_replicate
  cipher_injective _ _ _ _ h := (Prod.mk.inj h).1

/-- The first 32 bytes. -/
def firstBytes (bytes : List UInt8) : Key :=
  ⟨(bytes ++ List.replicate 32 0).take 32, by simp⟩

def demoSecret : String := "test-session-secret-at-least-32-characters-long"

def demoCall : Call := ⟨some demoSecret, ⟨List.replicate ivLength 0, rfl⟩, "José 🙂"⟩

theorem distinct_demo : Distinct firstBytes [demoCall] demoSecret := by
  intro call hcall other hother _
  rw [List.mem_singleton.mp hcall] at hother
  exact (Option.some.inj hother).symm

/-- The same session under the secret before. -/
def earlierCall : Call := { demoCall with
  sessionSecret := some "earlier-session-secret-at-least-32-characters-long" }

theorem distinct_rolled : Distinct firstBytes [earlierCall, demoCall] demoSecret := by
  intro call hcall other hother hdigest
  rcases List.mem_pair.mp hcall with rfl | rfl
  · cases hother
    revert hdigest
    decide
  · exact (Option.some.inj hother).symm

theorem authentic_iff_demo : ∃ token,
    encryptSession plainGcm firstBytes (some demoSecret) demoCall.iv "José 🙂" = .ok token ∧
      decryptSession plainGcm firstBytes (log firstBytes [earlierCall, demoCall]) (some demoSecret)
        token = .ok (some "José 🙂") :=
  (authentic_iff plainGcm firstBytes [earlierCall, demoCall] demoSecret (by decide)
    distinct_rolled).1 demoCall (List.mem_pair.mpr (.inr rfl)) rfl

theorem authentic_fails : 32 ≤ (utf16 demoSecret).length ∧
    Distinct firstBytes [demoCall] demoSecret ∧ ∃ token,
      decryptSession plainGcm firstBytes (log firstBytes [demoCall]) (some demoSecret) token =
        .ok (some "José 🙂") ∧
      ¬Returned plainGcm firstBytes [demoCall] demoSecret "José 🙂" token := by
  have hlong : 32 ≤ (utf16 demoSecret).length := by decide
  have hreturned : Returned plainGcm firstBytes [demoCall] demoSecret "José 🙂" _ :=
    ⟨demoCall, List.mem_cons_self, rfl, rfl, encryptSession_eq hlong _ _⟩
  obtain ⟨haccepted, hcanonical⟩ := decryptSession_padded hlong hreturned
  exact ⟨hlong, distinct_demo, _, haccepted,
    mt (returned_iff hlong distinct_demo haccepted).mp hcanonical⟩

end CloudMesh.Auth.SessionCrypto
