import CloudMesh.JsonText
import CloudMesh.Streams.Utf8

/-!
# Passwords

`apps/api/src/lib/password.ts`. The length of a password is checked in UTF-16 code units, and
`bcrypt` reads its first 72 bytes. A character has at least as many bytes as code units, and more
unless it is ASCII, so that a password which is not ASCII can be accepted and read in part.

## Main definitions

- `validatePasswordStrength`, `verifyPasswordConstantTime` — the check and the comparison
- `Bcrypt` — what is relied on of `bcrypt`
- `StaysDistinct` — no other password is taken for a password
-/

namespace CloudMesh.Auth.Passwords

open Streams

/-- The UTF-8 encoding. -/
def bytes (password : String) : List UInt8 := Utf8.encode password.toList

/-! ## `password.ts` -/

def minLength : ℕ := 8

/-- `bcrypt` silently truncates beyond 72 bytes. -/
def maxLength : ℕ := 72

/-- The lengths are those of JavaScript. -/
def validatePasswordStrength (password : String) : Option String :=
  if (utf16 password).length < minLength then
    some s!"Password must be at least {minLength} characters"
  else if (utf16 password).length > maxLength then
    some s!"Password must be at most {maxLength} characters"
  else none

/-- The comparison reads the first 72 bytes of a password, whatever salt and cost its hash has. -/
structure Bcrypt where
  hash (salt : String) (cost : ℕ) (password : String) : String
  compare (password hash : String) : Bool
  hash_ne_empty : ∀ salt cost password, hash salt cost password ≠ ""
  compare_hash : ∀ salt cost p q,
    compare p (hash salt cost q) = true ↔ (bytes p).take 72 = (bytes q).take 72

/-- `cost` is `BCRYPT_COST`, and the salt is drawn for each hash. -/
def hashPassword (bcrypt : Bcrypt) (salt : String) (cost : ℕ) (password : String) : String :=
  bcrypt.hash salt cost password

/-- Without a hash the comparison with the dummy takes its time, and its result is dropped. -/
def verifyPasswordConstantTime (bcrypt : Bcrypt) (password : String) : Option String → Bool
  | none => false
  | some hash => if hash = "" then false else bcrypt.compare password hash

/-! ## What is expected -/

/-- For the hash of `q` no other accepted password is taken, and no byte of `q` is ignored. -/
structure StaysDistinct (bcrypt : Bcrypt) (salt : String) (cost : ℕ) (q : String) : Prop where
  distinct : ∀ p, validatePasswordStrength p = none → p ≠ q →
    verifyPasswordConstantTime bcrypt p (some (hashPassword bcrypt salt cost q)) = false
  read : (bytes q).take 72 = bytes q

/-! ## Widths of characters -/

section Widths

variable {c : Char} {text : List Char}

/-- The units of a text. -/
def units (text : List Char) : ℕ := (text.flatMap utf16Char).length

theorem units_append (xs ys : List Char) : units (xs ++ ys) = units xs + units ys := by
  rw [units, List.flatMap_append, List.length_append]
  rfl

theorem units_singleton (c : Char) : units [c] = if c.toNat < 0x10000 then 1 else 2 := by
  rw [units, List.flatMap_singleton, utf16Char]
  split <;> rfl

theorem length_encode_append (xs ys : List Char) :
    (Utf8.encode (xs ++ ys)).length = (Utf8.encode xs).length + (Utf8.encode ys).length := by
  rw [Utf8.encode_append, List.length_append]

theorem length_encode_singleton (c : Char) : (Utf8.encode [c]).length =
    if c.toNat < 0x80 then 1 else if c.toNat < 0x800 then 2 else if c.toNat < 0x10000 then 3
    else 4 := by
  have hc : Utf8.encode [c] = String.utf8EncodeChar c := List.append_nil _
  have hval : c.val.toNat = c.toNat := rfl
  rw [hc]
  unfold String.utf8EncodeChar
  simp only [hval]
  split_ifs <;> first | rfl | omega

/-- No character has more units than bytes. -/
theorem units_le (text : List Char) : units text ≤ (Utf8.encode text).length := by
  induction text with
  | nil => exact le_rfl
  | cons c text ih =>
    have hunits := units_append [c] text
    have hbytes := length_encode_append [c] text
    rw [units_singleton] at hunits
    rw [length_encode_singleton] at hbytes
    rw [← List.singleton_append, hunits, hbytes]
    split_ifs <;> omega

/-- Only ASCII has as many. -/
theorem units_eq_iff (text : List Char) :
    units text = (Utf8.encode text).length ↔ ∀ c ∈ text, c.toNat < 0x80 := by
  induction text with
  | nil => exact iff_of_true rfl fun _ hc => (List.not_mem_nil hc).elim
  | cons c text ih =>
    have hle := units_le text
    have hunits := units_append [c] text
    have hbytes := length_encode_append [c] text
    rw [units_singleton] at hunits
    rw [length_encode_singleton] at hbytes
    rw [List.forall_mem_cons, ← ih, ← List.singleton_append, hunits, hbytes]
    split_ifs <;> omega

theorem units_pos (hne : text ≠ []) : 0 < units text := by
  cases text with
  | nil => exact absurd rfl hne
  | cons c text =>
    rw [← List.singleton_append, units_append, units_singleton]
    split <;> omega

end Widths

/-! ## A character with the same first bytes -/

section Neighbour

/-- The character whose lowest bit is the other one. -/
def neighbour (c : Char) : Char := Char.ofNat (if c.toNat % 2 = 0 then c.toNat + 1 else c.toNat - 1)

theorem toNat_neighbour (c : Char) :
    (neighbour c).toNat = if c.toNat % 2 = 0 then c.toNat + 1 else c.toNat - 1 := by
  have hvalid : c.toNat < 0xD800 ∨ 0xDFFF < c.toNat ∧ c.toNat < 0x110000 := c.valid
  refine toNat_charOfNat ?_
  unfold Nat.isValidChar
  split <;> omega

theorem neighbour_ne (c : Char) : neighbour c ≠ c := by
  intro h
  have hnat := toNat_neighbour c
  rw [h] at hnat
  split at hnat <;> omega

theorem units_neighbour (c : Char) : units [neighbour c] = units [c] := by
  rw [units_singleton, units_singleton, toNat_neighbour]
  split_ifs <;> omega

theorem length_encode_neighbour (c : Char) :
    (Utf8.encode [neighbour c]).length = (Utf8.encode [c]).length := by
  rw [length_encode_singleton, length_encode_singleton, toNat_neighbour]
  split_ifs <;> omega

/-- The lowest bit is in the last byte. -/
theorem dropLast_encode_neighbour (c : Char) :
    (Utf8.encode [neighbour c]).dropLast = (Utf8.encode [c]).dropLast := by
  have hone (d : Char) : Utf8.encode [d] = String.utf8EncodeChar d := List.append_nil _
  have hval : c.val.toNat = c.toNat := rfl
  have hneighbour : (neighbour c).val.toNat =
    if c.toNat % 2 = 0 then c.toNat + 1 else c.toNat - 1 := toNat_neighbour c
  -- the bytes before the last one are made of these quotients
  have htwo : (neighbour c).val.toNat / 64 = c.toNat / 64 := by rw [hneighbour]; split <;> omega
  have hthree : (neighbour c).val.toNat / 4096 = c.toNat / 4096 := by omega
  have hfour : (neighbour c).val.toNat / 262144 = c.toNat / 262144 := by omega
  have hbelow (n : ℕ) : (neighbour c).val.toNat ≤ 64 * n + 63 ↔ c.toNat ≤ 64 * n + 63 := by omega
  rw [hone, hone]
  unfold String.utf8EncodeChar
  simp only [hval, htwo, hthree, hfour, hbelow 1, hbelow 31, hbelow 1023]
  split_ifs <;> rfl

end Neighbour

/-! ## Texts with the same first bytes -/

section Collisions

variable {limit : ℕ} {c : Char} {text other : List Char}

/-- When the last byte is not read, the last character can be another one. -/
theorem take_encode_neighbour (h : limit < (Utf8.encode (text ++ [c])).length) :
    (Utf8.encode (text ++ [neighbour c])).take limit = (Utf8.encode (text ++ [c])).take limit := by
  have hread (d : Char) (hd : limit < (Utf8.encode (text ++ [d])).length) :
      (Utf8.encode (text ++ [d])).take limit =
        (Utf8.encode text ++ (Utf8.encode [d]).dropLast).take limit := by
    have hne : Utf8.encode [d] ≠ [] := by
      intro hnil
      have hlength := length_encode_singleton d
      rw [hnil, List.length_nil] at hlength
      split_ifs at hlength
    rw [length_encode_append] at hd
    rw [Utf8.encode_append, ← List.dropLast_concat_getLast hne, ← List.append_assoc,
      List.dropLast_concat, List.take_append_of_le_length]
    rw [List.length_append, List.length_dropLast]
    omega
  have hlength : (Utf8.encode (text ++ [neighbour c])).length =
      (Utf8.encode (text ++ [c])).length := by
    rw [length_encode_append, length_encode_append, length_encode_neighbour]
  rw [hread c h, hread (neighbour c) (hlength ▸ h), dropLast_encode_neighbour]

/-- When all bytes are read, a text that begins like this one goes on. -/
theorem take_encode_append (h : (Utf8.encode text).length = limit) :
    (Utf8.encode (text ++ other)).take limit = (Utf8.encode text).take limit := by
  rw [Utf8.encode_append, List.take_append_of_le_length h.ge]

/-- A text that is read to its end is the only one. -/
theorem eq_of_take_of_lt (h : (Utf8.encode other).take limit = (Utf8.encode text).take limit)
    (hshort : (Utf8.encode text).length < limit) : other = text := by
  rw [List.take_of_length_le hshort.le] at h
  have hlength := congrArg List.length h
  rw [List.length_take] at hlength
  rw [List.take_of_length_le (by omega)] at h
  exact Utf8.encode_injective h

/-- A text of as many bytes as are read is the only one that is not longer. -/
theorem eq_of_take_of_eq (h : (Utf8.encode other).take limit = (Utf8.encode text).take limit)
    (hfull : (Utf8.encode text).length = limit) (hunits : units other ≤ units text) :
    other = text := by
  rw [List.take_of_length_le hfull.le] at h
  obtain ⟨rest, rfl⟩ : ∃ rest, other = text ++ rest := by
    apply Utf8.exists_append_of_encode
    rw [← h]
    exact (List.take_append_drop limit (Utf8.encode other)).symm
  cases rest with
  | nil => exact List.append_nil text
  | cons c rest =>
    have hpos : 0 < units (c :: rest) := units_pos (List.cons_ne_nil c rest)
    rw [units_append] at hunits
    omega

end Collisions

/-! ## Accepted passwords -/

section Accepted

variable {bcrypt : Bcrypt} {salt : String} {cost : ℕ} {p q : String}

theorem validatePasswordStrength_eq_none_iff : validatePasswordStrength p = none ↔
    8 ≤ units p.toList ∧ units p.toList ≤ 72 := by
  have hunits : (utf16 p).length = units p.toList := rfl
  unfold validatePasswordStrength minLength maxLength
  rw [hunits]
  split_ifs <;> simp <;> omega

theorem verifyPasswordConstantTime_hashPassword :
    verifyPasswordConstantTime bcrypt p (some (hashPassword bcrypt salt cost q)) = true ↔
      (bytes p).take 72 = (bytes q).take 72 := by
  rw [verifyPasswordConstantTime, hashPassword, if_neg (bcrypt.hash_ne_empty _ _ _),
    bcrypt.compare_hash]

/-- A password that is not ASCII and has 72 bytes or more shares them with another one. -/
theorem exists_collision (hq : validatePasswordStrength q = none) (hlong : 72 ≤ (bytes q).length)
    (hascii : ¬∀ c ∈ q.toList, c.toNat < 0x80) :
    ∃ p, validatePasswordStrength p = none ∧ p ≠ q ∧ (bytes p).take 72 = (bytes q).take 72 := by
  obtain ⟨hmin, hmax⟩ := validatePasswordStrength_eq_none_iff.mp hq
  obtain ⟨text, rfl⟩ : ∃ text, q = String.ofList text := ⟨q.toList, String.ofList_toList.symm⟩
  simp only [bytes, String.toList_ofList] at hlong hascii hmin hmax ⊢
  have hfrom (other : List Char) (hmin : 8 ≤ units other) (hmax : units other ≤ 72)
      (hne : other ≠ text) (htake : (Utf8.encode other).take 72 = (Utf8.encode text).take 72) :
      ∃ p, validatePasswordStrength p = none ∧ p ≠ String.ofList text ∧
        (Utf8.encode p.toList).take 72 = (Utf8.encode text).take 72 := by
    refine ⟨String.ofList other, ?_, fun heq => hne (String.ofList_injective heq), ?_⟩
    · rw [validatePasswordStrength_eq_none_iff, String.toList_ofList]
      exact ⟨hmin, hmax⟩
    · rw [String.toList_ofList]
      exact htake
  have hless : units text < (Utf8.encode text).length :=
    lt_of_le_of_ne (units_le text) fun heq => hascii ((units_eq_iff text).mp heq)
  rcases hlong.eq_or_lt with hfull | hlong
  · -- one more character is not read, and the code units allow it
    have hone : units ['a'] = 1 := by decide
    have hunits := units_append text ['a']
    exact hfrom (text ++ ['a']) (by omega) (by omega) (by simp) (take_encode_append hfull.symm)
  · obtain rfl | ⟨init, c, rfl⟩ := text.eq_nil_or_concat'
    · exact absurd hlong (by decide)
    · -- the last byte is not read, so that the last character may be another one
      have hunits : units (init ++ [neighbour c]) = units (init ++ [c]) := by
        rw [units_append, units_neighbour, units_append]
      have hne : init ++ [neighbour c] ≠ init ++ [c] := by
        intro heq
        exact neighbour_ne c (List.cons.inj (List.append_cancel_left heq)).1
      exact hfrom _ (by omega) (by omega) hne (take_encode_neighbour hlong)

/-- Exactly the passwords of fewer than 72 bytes and those in ASCII are no other's. -/
theorem staysDistinct_iff (bcrypt : Bcrypt) (salt : String) (cost : ℕ)
    (hq : validatePasswordStrength q = none) : StaysDistinct bcrypt salt cost q ↔
      (bytes q).length < 72 ∨ ∀ c ∈ q.toList, c.toNat < 0x80 := by
  constructor
  · intro h
    by_contra hneither
    rw [not_or, not_lt] at hneither
    obtain ⟨p, hp, hne, htake⟩ := exists_collision hq hneither.1 hneither.2
    have hfalse := h.distinct p hp hne
    rw [verifyPasswordConstantTime_hashPassword.mpr htake] at hfalse
    cases hfalse
  · intro h
    have hmax := (validatePasswordStrength_eq_none_iff.mp hq).2
    have hle : (bytes q).length ≤ 72 := by
      rcases h with hshort | hascii
      · exact hshort.le
      · exact (units_eq_iff q.toList).mpr hascii ▸ hmax
    refine ⟨fun p hp hne => ?_, List.take_of_length_le hle⟩
    rw [Bool.eq_false_iff, ne_eq, verifyPasswordConstantTime_hashPassword]
    intro htake
    refine hne (String.toList_injective ?_)
    rcases hle.lt_or_eq with hshort | hfull
    · exact eq_of_take_of_lt htake hshort
    · have hascii := h.resolve_left hfull.not_lt
      have hunits : units q.toList = 72 := ((units_eq_iff q.toList).mpr hascii).trans hfull
      have hpmax := (validatePasswordStrength_eq_none_iff.mp hp).2
      -- `p` begins with `q`, and has no code unit left for anything after it
      exact eq_of_take_of_eq htake hfull (hpmax.trans hunits.ge)

end Accepted

/-! ## A password that is not distinct -/

/-- One character a byte. -/
def printed (bytes : List UInt8) : String :=
  String.ofList ('$' :: bytes.map fun b => Char.ofNat b.toNat)

theorem printed_injective : Function.Injective printed := by
  have hchar : Function.Injective fun b : UInt8 => Char.ofNat b.toNat := by
    intro a b h
    have hnat (b : UInt8) : (Char.ofNat b.toNat).toNat = b.toNat :=
      toNat_charOfNat (Or.inl (b.toNat_lt.trans (by decide)))
    have hval := congrArg Char.toNat h
    dsimp only at hval
    rw [hnat, hnat] at hval
    exact UInt8.toNat_inj.mp hval
  intro xs ys h
  exact List.map_injective_iff.mpr hchar (List.cons.inj (String.ofList_injective h)).2

/-- The first 72 bytes themselves, which tell apart what a hash of them tells apart. -/
def firstBytes : Bcrypt where
  hash _ _ password := printed ((bytes password).take 72)
  compare password hash := printed ((bytes password).take 72) = hash
  hash_ne_empty _ _ _ h := by
    have hlist := congrArg String.toList h
    simp [printed] at hlist
  compare_hash _ _ _ _ := by rw [decide_eq_true_iff, printed_injective.eq_iff]

/-- A password in ASCII. -/
theorem staysDistinct_iff_ascii : StaysDistinct firstBytes "salt" 12 "correct horse" ↔
    (bytes "correct horse").length < 72 ∨ ∀ c ∈ "correct horse".toList, c.toNat < 0x80 :=
  staysDistinct_iff firstBytes "salt" 12 (by decide)

/-- 37 characters of 73 bytes, of which the last one is not read. -/
theorem staysDistinct_fails :
    ¬ ∀ (bcrypt : Bcrypt) (salt : String) (cost : ℕ) (p q : String),
      validatePasswordStrength p = none → validatePasswordStrength q = none → p ≠ q →
        verifyPasswordConstantTime bcrypt p (some (hashPassword bcrypt salt cost q)) = false := by
  intro h
  have hp : validatePasswordStrength (String.ofList (List.replicate 36 'é' ++ ['a'])) = none := by
    decide
  have hq : validatePasswordStrength (String.ofList (List.replicate 36 'é' ++ ['b'])) = none := by
    decide
  have hne : String.ofList (List.replicate 36 'é' ++ ['a']) ≠
      String.ofList (List.replicate 36 'é' ++ ['b']) := by
    decide
  have htake : (bytes (String.ofList (List.replicate 36 'é' ++ ['a']))).take 72 =
      (bytes (String.ofList (List.replicate 36 'é' ++ ['b']))).take 72 := by
    decide
  have hfalse := h firstBytes "salt" 12 _ _ hp hq hne
  rw [verifyPasswordConstantTime_hashPassword.mpr htake] at hfalse
  cases hfalse

end CloudMesh.Auth.Passwords
