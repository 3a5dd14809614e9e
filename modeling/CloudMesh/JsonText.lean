import Mathlib.Algebra.Order.Round
import Mathlib.Data.Int.Log
import Mathlib.Data.Rat.Floor

/-!
# JSON texts

`JSON.parse`. A string is the list of its UTF-16 code units, so that escapes which stand for half a
character and lengths are what they are in the source; a number is the double next to its literal.

## Main definitions

- `JsString`, `utf16` — the strings of JavaScript
- `Json` — what a text stands for
- `Json.parse` — the parser
- `Json.parse_eq_some_iff` — the parser's fuel never decides
-/

namespace CloudMesh

/-! ## Strings -/

abbrev JsString := List UInt16

def utf16Char (c : Char) : JsString :=
  if c.toNat < 0x10000 then [UInt16.ofNat c.toNat]
  else [UInt16.ofNat (0xD800 + (c.toNat - 0x10000) / 0x400),
    UInt16.ofNat (0xDC00 + (c.toNat - 0x10000) % 0x400)]

def utf16 (s : String) : JsString := s.toList.flatMap utf16Char

/-- The characters of a string; half a character is not one, and is read as 0. -/
def ofUtf16 : JsString → List Char
  | high :: low :: s =>
    if 0xD800 ≤ high.toNat ∧ high.toNat < 0xDC00 ∧ 0xDC00 ≤ low.toNat ∧ low.toNat < 0xE000 then
      Char.ofNat (0x10000 + (high.toNat - 0xD800) * 0x400 + (low.toNat - 0xDC00)) :: ofUtf16 s
    else Char.ofNat high.toNat :: ofUtf16 (low :: s)
  | [unit] => [Char.ofNat unit.toNat]
  | [] => []

theorem toNat_charOfNat {n : ℕ} (h : n.isValidChar) : (Char.ofNat n).toNat = n := by
  rw [Char.ofNat, dif_pos h]
  rfl

theorem ofUtf16_cons_of_not_high {unit : UInt16} (h : ¬(0xD800 ≤ unit.toNat ∧ unit.toNat < 0xDC00))
    (s : JsString) : ofUtf16 (unit :: s) = Char.ofNat unit.toNat :: ofUtf16 s := by
  cases s with
  | nil => rfl
  | cons low s => rw [ofUtf16, if_neg fun hpair => h ⟨hpair.1, hpair.2.1⟩]

theorem ofUtf16_utf16Char_append (c : Char) (s : JsString) :
    ofUtf16 (utf16Char c ++ s) = c :: ofUtf16 s := by
  have hvalid : c.toNat < 0xD800 ∨ 0xDFFF < c.toNat ∧ c.toNat < 0x110000 := c.valid
  unfold utf16Char
  split
  · rename_i hsmall
    have hunit : (UInt16.ofNat c.toNat).toNat = c.toNat := by
      rw [UInt16.toNat_ofNat']
      omega
    rw [List.singleton_append, ofUtf16_cons_of_not_high (by omega), hunit, Char.ofNat_toNat]
  · have hhigh : (UInt16.ofNat (0xD800 + (c.toNat - 0x10000) / 0x400)).toNat =
        0xD800 + (c.toNat - 0x10000) / 0x400 := by
      rw [UInt16.toNat_ofNat']
      omega
    have hlow : (UInt16.ofNat (0xDC00 + (c.toNat - 0x10000) % 0x400)).toNat =
        0xDC00 + (c.toNat - 0x10000) % 0x400 := by
      rw [UInt16.toNat_ofNat']
      omega
    have hvalue : 0x10000 + (0xD800 + (c.toNat - 0x10000) / 0x400 - 0xD800) * 0x400 +
        (0xDC00 + (c.toNat - 0x10000) % 0x400 - 0xDC00) = c.toNat := by omega
    rw [List.cons_append, List.singleton_append, ofUtf16, hhigh, hlow, if_pos (by omega), hvalue,
      Char.ofNat_toNat]

/-- A text is read back from its code units. -/
theorem ofUtf16_utf16 (s : String) : ofUtf16 (utf16 s) = s.toList := by
  unfold utf16
  induction s.toList with
  | nil => rfl
  | cons c cs ih => rw [List.flatMap_cons, ofUtf16_utf16Char_append, ih]

theorem utf16_injective : Function.Injective utf16 := by
  intro s t h
  apply String.toList_inj.mp
  rw [← ofUtf16_utf16, h, ofUtf16_utf16]

theorem utf16_append (s t : String) : utf16 (s ++ t) = utf16 s ++ utf16 t := by
  rw [utf16, String.toList_append, List.flatMap_append]
  rfl

/-! ## Values -/

/-- A literal beyond the largest double is an infinity. -/
inductive Json
  | null
  | bool (b : Bool)
  | number (x : ℚ)
  | infinity (negative : Bool)
  | string (s : JsString)
  | array (items : List Json)
  | object (fields : List (JsString × Json))

namespace Json

def roundHalfEven (x : ℚ) : ℤ :=
  if Int.fract x = 1 / 2 ∧ ⌊x⌋ % 2 = 0 then ⌊x⌋ else round x

/-- The double next to a decimal, which has 53 bits from the place of its leading one on. -/
def ofDecimal (x : ℚ) : Json :=
  let unit : ℚ := 2 ^ (max (Int.log 2 |x|) (-1022) - 52)
  let double := roundHalfEven (x / unit) * unit
  if 2 ^ 1024 ≤ |double| then .infinity (x < 0) else .number double

/-- The fields with one more; a key that is there already keeps its place. -/
def insertField (key : JsString) (value : Json) :
    List (JsString × Json) → List (JsString × Json)
  | [] => [(key, value)]
  | field :: fields =>
    if field.1 = key then (key, value) :: fields else field :: insertField key value fields

mutual

/-- What the text stands for that `JSON.stringify` makes of a value; an infinity is written
`null`. -/
def serialized : Json → Json
  | .null => .null
  | .bool b => .bool b
  | .number x => .number x
  | .infinity _ => .null
  | .string s => .string s
  | .array items => .array (serializedItems items)
  | .object fields => .object (serializedFields fields)

def serializedItems : List Json → List Json
  | [] => []
  | item :: items => item.serialized :: serializedItems items

def serializedFields : List (JsString × Json) → List (JsString × Json)
  | [] => []
  | field :: fields => serializedField field :: serializedFields fields

def serializedField : JsString × Json → JsString × Json
  | (key, value) => (key, value.serialized)

end

theorem serializedFields_eq {fields : List (JsString × Json)}
    (h : ∀ field ∈ fields, field.2.serialized = field.2) : serializedFields fields = fields := by
  induction fields with
  | nil => rfl
  | cons field fields ih =>
    rw [serializedFields, serializedField, h field List.mem_cons_self,
      ih fun other hother => h other (List.mem_cons_of_mem _ hother)]

/-! ## The parser -/

def skipSpace (s : List Char) : List Char :=
  s.dropWhile fun c => c = ' ' || c = '\t' || c = '\n' || c = '\r'

def hexDigitOf (c : Char) : Option ℕ :=
  if c.isDigit then some (c.toNat - '0'.toNat)
  else if 'a' ≤ c ∧ c ≤ 'f' then some (c.toNat - 'a'.toNat + 10)
  else if 'A' ≤ c ∧ c ≤ 'F' then some (c.toNat - 'A'.toNat + 10)
  else none

def codeUnit (a b c d : Char) : Option UInt16 := do
  let a ← hexDigitOf a
  let b ← hexDigitOf b
  let c ← hexDigitOf c
  let d ← hexDigitOf d
  return UInt16.ofNat (4096 * a + 256 * b + 16 * c + d)

def escaped : Char → Option UInt16
  | '"' => some 0x22
  | '\\' => some 0x5C
  | '/' => some 0x2F
  | 'b' => some 0x8
  | 'f' => some 0xC
  | 'n' => some 0xA
  | 'r' => some 0xD
  | 't' => some 0x9
  | _ => none

/-- A string after its opening quote, and what follows it. -/
def stringTail : List Char → Option (JsString × List Char)
  | [] => none
  | '"' :: s => some ([], s)
  | '\\' :: 'u' :: a :: b :: c :: d :: s => do
    let unit ← codeUnit a b c d
    let (units, s) ← stringTail s
    return (unit :: units, s)
  | '\\' :: c :: s => do
    let unit ← escaped c
    let (units, s) ← stringTail s
    return (unit :: units, s)
  | c :: s => do
    guard (32 ≤ c.toNat)
    let (units, s) ← stringTail s
    return (utf16Char c ++ units, s)

def digits (s : List Char) : List Char × List Char := s.span Char.isDigit

def natOfDigits (ds : List Char) : ℕ := ds.foldl (fun n c => 10 * n + (c.toNat - '0'.toNat)) 0

/-- The minus sign of a literal. -/
def sign : List Char → Bool × List Char
  | '-' :: s => (true, s)
  | s => (false, s)

def fraction : List Char → Option (List Char × List Char)
  | '.' :: s => if (digits s).1 = [] then none else some (digits s)
  | s => some ([], s)

def exponent : List Char → Option (ℤ × List Char)
  | c :: s =>
    if c = 'e' ∨ c = 'E' then
      let (negative, s) := match s with
        | '+' :: s => (false, s)
        | s => sign s
      let (ds, s) := digits s
      if ds = [] then none
      else some (if negative then -(natOfDigits ds : ℤ) else natOfDigits ds, s)
    else some (0, c :: s)
  | [] => some (0, [])

def numberLiteral (s : List Char) : Option (Json × List Char) := do
  let (negative, s) := sign s
  let (int, s) := digits s
  guard (int ≠ [] ∧ (int.head? = some '0' → int.length = 1))
  let (frac, s) ← fraction s
  let (exp, s) ← exponent s
  let magnitude : ℚ := natOfDigits (int ++ frac) * 10 ^ (exp - frac.length)
  return (ofDecimal (if negative then -magnitude else magnitude), s)

def scalar : List Char → Option (Json × List Char)
  | '"' :: s => (stringTail s).map fun (units, s) => (.string units, s)
  | 't' :: 'r' :: 'u' :: 'e' :: s => some (.bool true, s)
  | 'f' :: 'a' :: 'l' :: 's' :: 'e' :: s => some (.bool false, s)
  | 'n' :: 'u' :: 'l' :: 'l' :: s => some (.null, s)
  | s => numberLiteral s

mutual

def value : ℕ → List Char → Option (Json × List Char)
  | 0, _ => none
  | fuel + 1, s =>
    match skipSpace s with
    | '[' :: s =>
      match skipSpace s with
      | ']' :: s => some (.array [], s)
      | s => (items fuel s).map fun (xs, s) => (.array xs, s)
    | '\x7b' :: s =>
      match skipSpace s with
      | '\x7d' :: s => some (.object [], s)
      | s => (members fuel s []).map fun (fields, s) => (.object fields, s)
    | s => scalar s

/-- What stands before the closing bracket. -/
def items : ℕ → List Char → Option (List Json × List Char)
  | 0, _ => none
  | fuel + 1, s =>
    match value fuel s with
    | none => none
    | some (x, s) =>
      match skipSpace s with
      | ',' :: s => (items fuel s).map fun (xs, s) => (x :: xs, s)
      | ']' :: s => some ([x], s)
      | _ => none

/-- What stands before the closing brace, after some fields. -/
def members : ℕ → List Char → List (JsString × Json) →
    Option (List (JsString × Json) × List Char)
  | 0, _, _ => none
  | fuel + 1, s, fields =>
    match skipSpace s with
    | '"' :: s =>
      match stringTail s with
      | none => none
      | some (key, s) =>
        match skipSpace s with
        | ':' :: s =>
          match value fuel s with
          | none => none
          | some (x, s) =>
            match skipSpace s with
            | ',' :: s => members fuel s (insertField key x fields)
            | '\x7d' :: s => some (insertField key x fields, s)
            | _ => none
        | _ => none
    | _ => none

end

/-! ## The fuel

Every call of the parser is on what is left of the text, and no more than two calls in a row are on
the same text. -/

theorem length_skipSpace_le (s : List Char) : (skipSpace s).length ≤ s.length :=
  (List.dropWhile_suffix _).length_le

theorem length_of_skipSpace {s t : List Char} {c : Char} (h : skipSpace s = c :: t) :
    t.length < s.length := by
  have hle := length_skipSpace_le s
  rw [h, List.length_cons] at hle
  omega

theorem length_of_stringTail {s r : List Char} {units : JsString}
    (h : stringTail s = some (units, r)) : r.length < s.length := by
  induction s using stringTail.induct generalizing units r with
  | case1 => cases h
  | case2 s =>
    cases h
    exact Nat.lt_succ_self _
  | case3 a b c d s ih =>
    simp only [stringTail, Option.bind_eq_bind, Option.bind_eq_some_iff] at h
    obtain ⟨unit, -, ⟨rest, t⟩, htail, hr⟩ := h
    cases hr
    have := ih htail
    simp only [List.length_cons]
    omega
  | case4 c s hu ih =>
    rw [stringTail] at h
    · simp only [Option.bind_eq_bind, Option.bind_eq_some_iff] at h
      obtain ⟨unit, -, ⟨rest, t⟩, htail, hr⟩ := h
      cases hr
      have := ih htail
      simp only [List.length_cons]
      omega
    · exact hu
  | case5 c s hquote hunicode hescape ih =>
    rw [stringTail] at h
    · simp only [Option.bind_eq_bind, Option.bind_eq_some_iff] at h
      obtain ⟨-, -, ⟨rest, t⟩, htail, hr⟩ := h
      cases hr
      have := ih htail
      simp only [List.length_cons]
      omega
    · exact hquote
    · exact hunicode
    · exact hescape

theorem length_digits (s : List Char) : (digits s).1.length + (digits s).2.length = s.length := by
  rw [digits, List.span_eq_takeWhile_dropWhile, ← List.length_append,
    List.takeWhile_append_dropWhile]

theorem length_of_fraction {s r ds : List Char} (h : fraction s = some (ds, r)) :
    r.length ≤ s.length := by
  unfold fraction at h
  split at h
  · rename_i s
    split at h
    · cases h
    · have hlen := length_digits s
      rw [Option.some.inj h] at hlen
      dsimp only at hlen
      simp only [List.length_cons]
      omega
  · cases h
    exact le_rfl

theorem length_sign_le (s : List Char) : (sign s).2.length ≤ s.length := by
  unfold sign
  split
  · exact Nat.le_succ _
  · exact le_rfl

theorem length_of_exponent {s r : List Char} {e : ℤ} (h : exponent s = some (e, r)) :
    r.length ≤ s.length := by
  unfold exponent at h
  split at h
  · rename_i c s
    split at h
    · split at h
      rename_i negative t hsign
      have ht : t.length ≤ s.length := by
        split at hsign
        · cases hsign
          exact Nat.le_succ _
        · have hle := length_sign_le s
          rwa [hsign] at hle
      have hlen := length_digits t
      dsimp only at h
      split at h
      · cases h
      · cases h
        simp only [List.length_cons]
        omega
    · cases h
      exact le_rfl
  · cases h
    exact le_rfl

theorem length_of_numberLiteral {s r : List Char} {x : Json}
    (h : numberLiteral s = some (x, r)) : r.length < s.length := by
  simp only [numberLiteral, Option.bind_eq_bind, Option.bind_eq_some_iff] at h
  obtain ⟨_, hint, ⟨frac, t⟩, hfrac, ⟨e, u⟩, hexp, hr⟩ := h
  cases hr
  dsimp only
  have hint : (digits (sign s).2).1 ≠ [] := by
    by_contra hnil
    simp [guard, hnil] at hint
  have hpos := List.length_pos_iff.mpr hint
  have hlen := length_digits (sign s).2
  have hsign := length_sign_le s
  have ht : t.length ≤ (digits (sign s).2).2.length := length_of_fraction hfrac
  have hu : u.length ≤ t.length := length_of_exponent hexp
  omega

theorem length_of_scalar {s r : List Char} {x : Json} (h : scalar s = some (x, r)) :
    r.length < s.length := by
  unfold scalar at h
  split at h
  · obtain ⟨⟨units, t⟩, htail, hr⟩ := Option.map_eq_some_iff.mp h
    cases hr
    have := length_of_stringTail htail
    simp only [List.length_cons]
    omega
  · cases h
    simp only [List.length_cons]
    omega
  · cases h
    simp only [List.length_cons]
    omega
  · cases h
    simp only [List.length_cons]
    omega
  · exact length_of_numberLiteral h

theorem fuel_succ (n : ℕ) :
    (∀ s r, value n s = some r → value (n + 1) s = some r) ∧
    (∀ s r, items n s = some r → items (n + 1) s = some r) ∧
    ∀ s fields r, members n s fields = some r → members (n + 1) s fields = some r := by
  induction n with
  | zero =>
    refine ⟨fun s r h => ?_, fun s r h => ?_, fun s fields r h => ?_⟩
    · simp [value] at h
    · simp [items] at h
    · simp [members] at h
  | succ n ih =>
    obtain ⟨ihvalue, ihitems, ihmembers⟩ := ih
    refine ⟨fun s r h => ?_, fun s r h => ?_, fun s fields r h => ?_⟩
    · rw [value] at h ⊢
      split at h
      · split at h
        · exact h
        · obtain ⟨out, hout, rfl⟩ := Option.map_eq_some_iff.mp h
          rw [ihitems _ _ hout]
          rfl
      · split at h
        · exact h
        · obtain ⟨out, hout, rfl⟩ := Option.map_eq_some_iff.mp h
          rw [ihmembers _ _ _ hout]
          rfl
      · exact h
    · rw [items] at h ⊢
      split at h
      · cases h
      · rename_i x t hvalue
        rw [ihvalue _ _ hvalue]
        dsimp only
        split at h
        · obtain ⟨out, hout, rfl⟩ := Option.map_eq_some_iff.mp h
          rw [ihitems _ _ hout]
          rfl
        · exact h
        · cases h
    · rw [members] at h ⊢
      split at h
      · split at h
        · cases h
        · split at h
          · split at h
            · cases h
            · rename_i x t hvalue
              rw [ihvalue _ _ hvalue]
              dsimp only
              split at h
              · exact ihmembers _ _ _ h
              · exact h
              · cases h
          · cases h
      · cases h

theorem value_mono {m n : ℕ} (hmn : m ≤ n) {s : List Char} {r : Json × List Char}
    (h : value m s = some r) : value n s = some r :=
  Nat.le_induction h (fun n _ ih => (fuel_succ n).1 s r ih) n hmn

theorem items_mono {m n : ℕ} (hmn : m ≤ n) {s : List Char} {r : List Json × List Char}
    (h : items m s = some r) : items n s = some r :=
  Nat.le_induction h (fun n _ ih => (fuel_succ n).2.1 s r ih) n hmn

theorem members_mono {m n : ℕ} (hmn : m ≤ n) {s : List Char} {fields : List (JsString × Json)}
    {r : List (JsString × Json) × List Char} (h : members m s fields = some r) :
    members n s fields = some r :=
  Nat.le_induction h (fun n _ ih => (fuel_succ n).2.2 s fields r ih) n hmn

/-- What any amount of fuel reads is read with this much, and is not nothing. -/
theorem fuel_suffices (n : ℕ) :
    (∀ s x r, value n s = some (x, r) →
      r.length < s.length ∧ value (2 * s.length + 1) s = some (x, r)) ∧
    (∀ s xs r, items n s = some (xs, r) →
      r.length < s.length ∧ items (2 * s.length + 2) s = some (xs, r)) ∧
    ∀ s fields out r, members n s fields = some (out, r) →
      r.length < s.length ∧ members (2 * s.length + 2) s fields = some (out, r) := by
  induction n with
  | zero =>
    refine ⟨fun s x r h => ?_, fun s xs r h => ?_, fun s fields out r h => ?_⟩
    · simp [value] at h
    · simp [items] at h
    · simp [members] at h
  | succ n ih =>
    obtain ⟨ihvalue, ihitems, ihmembers⟩ := ih
    refine ⟨fun s x r h => ?_, fun s xs r h => ?_, fun s fields out r h => ?_⟩
    · -- an array, an object, or a scalar, which takes no fuel
      rw [value] at h ⊢
      split at h
      · rename_i t ht
        have hlt := length_of_skipSpace ht
        split at h
        · rename_i u hu
          cases h
          exact ⟨(length_of_skipSpace hu).trans hlt, rfl⟩
        · have hle := length_skipSpace_le t
          obtain ⟨⟨xs, u⟩, hitems, hout⟩ := Option.map_eq_some_iff.mp h
          cases hout
          obtain ⟨hu, hfuel⟩ := ihitems _ _ _ hitems
          rw [items_mono (by omega) hfuel]
          exact ⟨by omega, rfl⟩
      · rename_i t ht
        have hlt := length_of_skipSpace ht
        split at h
        · rename_i u hu
          cases h
          exact ⟨(length_of_skipSpace hu).trans hlt, rfl⟩
        · have hle := length_skipSpace_le t
          obtain ⟨⟨fields, u⟩, hmembers, hout⟩ := Option.map_eq_some_iff.mp h
          cases hout
          obtain ⟨hu, hfuel⟩ := ihmembers _ _ _ _ hmembers
          rw [members_mono (by omega) hfuel]
          exact ⟨by omega, rfl⟩
      · exact ⟨(length_of_scalar h).trans_le (length_skipSpace_le s), h⟩
    · -- an item, and then a comma or the closing bracket
      rw [items] at h ⊢
      split at h
      · cases h
      · rename_i y t hvalue
        obtain ⟨ht, hfuel⟩ := ihvalue _ _ _ hvalue
        rw [hfuel]
        dsimp only
        split at h
        · rename_i u hu
          have hlt := length_of_skipSpace hu
          obtain ⟨⟨ys, v⟩, hitems, hout⟩ := Option.map_eq_some_iff.mp h
          cases hout
          obtain ⟨hv, hrest⟩ := ihitems _ _ _ hitems
          rw [items_mono (by omega) hrest]
          exact ⟨by omega, rfl⟩
        · rename_i u hu
          cases h
          exact ⟨(length_of_skipSpace hu).trans ht, rfl⟩
        · cases h
    · -- a key, a colon and a value, and then a comma or the closing brace
      rw [members] at h ⊢
      split at h
      · rename_i t ht
        have htlt := length_of_skipSpace ht
        split at h
        · cases h
        · rename_i key u hkey
          have hult := length_of_stringTail hkey
          split at h
          · rename_i v hv
            have hvlt := length_of_skipSpace hv
            split at h
            · cases h
            · rename_i y w hvalue
              obtain ⟨hw, hfuel⟩ := ihvalue _ _ _ hvalue
              rw [value_mono (by omega) hfuel]
              dsimp only
              split at h
              · rename_i z hz
                have hzlt := length_of_skipSpace hz
                obtain ⟨hlt, hrest⟩ := ihmembers _ _ _ _ h
                exact ⟨by omega, members_mono (by omega) hrest⟩
              · rename_i z hz
                have hzlt := length_of_skipSpace hz
                cases h
                exact ⟨by omega, rfl⟩
              · cases h
          · cases h
      · cases h

/-- `JSON.parse`; `none` is a `SyntaxError`. -/
def parse (s : List Char) : Option Json :=
  match value (2 * s.length + 1) s with
  | some (json, rest) => if skipSpace rest = [] then some json else none
  | none => none

/-- A text is what its value is read from, with whatever fuel, and white space. -/
theorem parse_eq_some_iff {s : List Char} {json : Json} :
    parse s = some json ↔ ∃ fuel rest, value fuel s = some (json, rest) ∧ skipSpace rest = [] := by
  unfold parse
  constructor
  · intro h
    split at h
    · rename_i x rest hvalue
      split at h
      · rename_i hrest
        cases h
        exact ⟨_, rest, hvalue, hrest⟩
      · cases h
    · cases h
  · rintro ⟨fuel, rest, hvalue, hrest⟩
    rw [((fuel_suffices fuel).1 s json rest hvalue).2]
    exact if_pos hrest

end Json

end CloudMesh
