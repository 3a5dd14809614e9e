import CloudMesh.JsonText
import CloudMesh.Text
import Mathlib

/-!
# Two readers of numbers

`Number(s)` of JavaScript and `float(s)` of Python, for strings of Latin-1 characters, which is what
a header holds. Both read decimals in the same way. JavaScript takes a blank string for zero and
knows hexadecimal, octal and binary literals; Python knows underscores between digits, and
infinities and `nan` in any case.

## Main definitions

- `Numeric` — the numbers of both
- `number`, `pyFloat` — the two readers
- `eq_of_number_of_pyFloat` — what both read as a finite number is the same number
- `both_of_magnitude` — both read a decimal without a sign, as the double next to it
- `le_of_ofRat`, `ofRat_le` — rounding to a double keeps what is above and below a whole number
-/

namespace CloudMesh

namespace Sdk

/-- A number of either language. A whole number of Python is exact, the rest are doubles. -/
inductive Numeric
  | nan
  | infinity (negative : Bool)
  | finite (x : ℚ)
  deriving DecidableEq, Repr

/-- The number of a literal. -/
def Numeric.ofJson : Json → Numeric
  | .number x => .finite x
  | .infinity negative => .infinity negative
  | _ => .nan

/-- The double next to a number. -/
def Numeric.ofRat (x : ℚ) : Numeric := .ofJson (Json.ofDecimal x)

/-- The characters of a header. -/
def latin1 (bytes : List UInt8) : List Char := bytes.map Char.ofUInt8

/-! ## Decimals -/

/-- The sign of a literal. -/
def sign : List Char → Bool × List Char
  | '-' :: s => (true, s)
  | '+' :: s => (false, s)
  | s => (false, s)

/-- The exponent at the end of a literal. -/
def exponent : List Char → Option ℤ
  | [] => some 0
  | c :: s =>
    if c = 'e' ∨ c = 'E' then
      if (sign s).2 ≠ [] ∧ (sign s).2.all Char.isDigit then
        some (if (sign s).1 then -(Json.natOfDigits (sign s).2 : ℤ)
          else Json.natOfDigits (sign s).2)
      else none
    else none

/-- The digits after a point. -/
def fraction : List Char → List Char × List Char
  | '.' :: s => Json.digits s
  | s => ([], s)

/-- Digits, a point and digits, with at least one digit, and an exponent. -/
def magnitude (s : List Char) : Option ℚ :=
  let int := Json.digits s
  let frac := fraction int.2
  if int.1 ++ frac.1 = [] then none
  else (exponent frac.2).map fun exp : ℤ =>
    (Json.natOfDigits (int.1 ++ frac.1) : ℚ) * 10 ^ (exp - (frac.1.length : ℤ))

/-- A decimal with its sign. -/
def decimal (s : List Char) : Option Numeric :=
  (magnitude (sign s).2).map fun x => .ofRat (if (sign s).1 then -x else x)

/-! ## JavaScript -/

/-- The digits of a literal in another base. -/
def radixLiteral (base : ℕ) (ds : List Char) : Option ℕ :=
  if ds ≠ [] ∧ ds.all fun c => (Json.hexDigitOf c).any (· < base) then
    some (ds.foldl (fun n c => base * n + (Json.hexDigitOf c).getD 0) 0)
  else none

/-- The base of a literal, by its second character. -/
def radix (c : Char) : Option ℕ :=
  if c = 'x' ∨ c = 'X' then some 16
  else if c = 'o' ∨ c = 'O' then some 8
  else if c = 'b' ∨ c = 'B' then some 2
  else none

/-- A literal without white space around it; `none` is `NaN`. -/
def jsLiteral : List Char → Option Numeric
  | [] => some (.finite 0)
  | '0' :: c :: ds =>
    match radix c with
    | some base => (radixLiteral base ds).map fun n : ℕ => .ofRat n
    | none => decimal ('0' :: c :: ds)
  | s =>
    if (sign s).2 = "Infinity".toList then some (.infinity (sign s).1) else decimal s

/-- `Number(s)`. -/
def number (s : List Char) : Numeric := (jsLiteral (trim s)).getD .nan

/-! ## Python -/

/-- What `float` takes for white space, of Latin-1. -/
def isFloatSpace (c : Char) : Bool := c.toNat ∈ [0x9, 0xa, 0xb, 0xc, 0xd, 0x20, 0x85, 0xa0]

def stripFloatSpace (s : List Char) : List Char := stripEnds isFloatSpace s

/-- The string without its underscores, which stand between two digits. `prev` is what is before. -/
def withoutUnderscores (prev : Char) : List Char → Option (List Char)
  | [] => if prev = '_' then none else some []
  | c :: s =>
    if c = '_' then if prev.isDigit then withoutUnderscores c s else none
    else if prev = '_' ∧ ¬c.isDigit then none
    else (withoutUnderscores c s).map (c :: ·)

/-- A literal without white space and underscores; `none` is a `ValueError`. -/
def pyLiteral (s : List Char) : Option Numeric :=
  let lower := (sign s).2.map Char.toLower
  if lower = "inf".toList ∨ lower = "infinity".toList then some (.infinity (sign s).1)
  else if lower = "nan".toList then some .nan
  else decimal s

/-- `float(s)`. -/
def pyFloat (s : List Char) : Option Numeric :=
  (withoutUnderscores '\x00' (stripFloatSpace s)).bind pyLiteral

/-! ## What both read -/

/-- The characters of a number that is no word. -/
def isLiteralChar (c : Char) : Bool := c.isAlphanum || c ∈ ['.', '+', '-']

theorem isLiteralChar_of_isDigit {c : Char} (h : c.isDigit = true) : isLiteralChar c = true := by
  simp [isLiteralChar, Char.isAlphanum, h]

theorem digits_append (s : List Char) : (Json.digits s).1 ++ (Json.digits s).2 = s := by
  rw [Json.digits, List.span_eq_takeWhile_dropWhile, List.takeWhile_append_dropWhile]

theorem all_digits (s : List Char) : (Json.digits s).1.all isLiteralChar = true := by
  rw [Json.digits, List.span_eq_takeWhile_dropWhile, List.all_eq_true]
  intro c hc
  exact isLiteralChar_of_isDigit (List.all_eq_true.mp List.all_takeWhile c hc)

theorem all_of_digits {s : List Char} (h : (Json.digits s).2.all isLiteralChar = true) :
    s.all isLiteralChar = true := by
  rw [← digits_append s, List.all_append, all_digits, h]
  rfl

theorem all_of_sign {s : List Char} (h : (sign s).2.all isLiteralChar = true) :
    s.all isLiteralChar = true := by
  rw [sign.eq_def] at h
  split at h
  · simpa [isLiteralChar] using h
  · simpa [isLiteralChar] using h
  · exact h

theorem all_of_exponent {s : List Char} {e : ℤ} (h : exponent s = some e) :
    s.all isLiteralChar = true := by
  cases s with
  | nil => rfl
  | cons c s =>
    rw [exponent] at h
    by_cases hc : c = 'e' ∨ c = 'E'
    · rw [if_pos hc] at h
      by_cases hds : (sign s).2 ≠ [] ∧ (sign s).2.all Char.isDigit
      · have hs : (sign s).2.all isLiteralChar = true := by
          rw [List.all_eq_true] at hds ⊢
          exact fun d hd => isLiteralChar_of_isDigit (hds.2 d hd)
        have hc : isLiteralChar c = true := by
          rcases hc with rfl | rfl <;> decide
        rw [List.all_cons, hc, all_of_sign hs]
        rfl
      · rw [if_neg hds] at h
        cases h
    · rw [if_neg hc] at h
      cases h

theorem all_of_fraction {s : List Char} (h : (fraction s).2.all isLiteralChar = true) :
    s.all isLiteralChar = true := by
  rw [fraction.eq_def] at h
  split at h
  · rw [List.all_cons, all_of_digits h]
    rfl
  · exact h

theorem all_of_magnitude {s : List Char} {x : ℚ} (h : magnitude s = some x) :
    s.all isLiteralChar = true := by
  rw [magnitude] at h
  split at h
  · cases h
  · obtain ⟨e, he, -⟩ := Option.map_eq_some_iff.mp h
    exact all_of_digits (all_of_fraction (all_of_exponent he))

theorem all_of_decimal {s : List Char} {x : Numeric} (h : decimal s = some x) :
    s.all isLiteralChar = true := by
  obtain ⟨y, hy, -⟩ := Option.map_eq_some_iff.mp h
  exact all_of_sign (all_of_magnitude hy)

theorem isLiteralChar_of_hexDigitOf {c : Char} (h : (Json.hexDigitOf c).isSome = true) :
    isLiteralChar c = true := by
  rw [Json.hexDigitOf] at h
  split_ifs at h with hdigit hlower hupper
  · exact isLiteralChar_of_isDigit hdigit
  · have hc : c.isLower = true := by
      rw [Char.isLower, Bool.and_eq_true, decide_eq_true_eq, decide_eq_true_eq]
      exact ⟨hlower.1, UInt32.le_trans hlower.2 (show 'f'.val ≤ 'z'.val by decide)⟩
    rw [isLiteralChar, Char.isAlphanum, Char.isAlpha, hc, Bool.or_true, Bool.true_or, Bool.true_or]
  · have hc : c.isUpper = true := by
      rw [Char.isUpper, decide_eq_true_eq]
      exact ⟨hupper.1, UInt32.le_trans hupper.2 (show 'F'.val ≤ 'Z'.val by decide)⟩
    rw [isLiteralChar, Char.isAlphanum, Char.isAlpha, hc, Bool.true_or, Bool.true_or, Bool.true_or]
  · cases h

theorem all_of_radixLiteral {base n : ℕ} {ds : List Char} (h : radixLiteral base ds = some n) :
    ds.all isLiteralChar = true := by
  rw [radixLiteral] at h
  split_ifs at h with hds
  rw [List.all_eq_true] at hds ⊢
  intro c hc
  exact isLiteralChar_of_hexDigitOf (Option.isSome_of_any (hds.2 c hc))

theorem isLiteralChar_of_radix {c : Char} {base : ℕ} (h : radix c = some base) :
    isLiteralChar c = true := by
  rw [radix] at h
  split_ifs at h with hx ho hb
  · rcases hx with rfl | rfl <;> decide
  · rcases ho with rfl | rfl <;> decide
  · rcases hb with rfl | rfl <;> decide

/-- A finite literal of JavaScript is blank, in another base, or a decimal. -/
theorem jsLiteral_cases {s : List Char} {x : ℚ} (h : jsLiteral s = some (.finite x)) :
    s = [] ∨
      (∃ c ds base, s = '0' :: c :: ds ∧ radix c = some base ∧ s.all isLiteralChar = true) ∨
      decimal s = some (.finite x) := by
  rw [jsLiteral.eq_def] at h
  split at h
  · exact .inl rfl
  · rename_i c ds
    split at h
    · rename_i base hbase
      obtain ⟨n, hn, -⟩ := Option.map_eq_some_iff.mp h
      refine .inr (.inl ⟨c, ds, base, rfl, hbase, ?_⟩)
      rw [List.all_cons, List.all_cons, isLiteralChar_of_radix hbase, all_of_radixLiteral hn]
      rfl
    · exact .inr (.inr h)
  · split_ifs at h
    · cases h
    · exact .inr (.inr h)

theorem not_isFloatSpace {c : Char} (h : isLiteralChar c = true) : isFloatSpace c = false := by
  rw [Bool.eq_false_iff]
  intro hspace
  simp only [isLiteralChar, Char.isAlphanum, Char.isAlpha, Char.isUpper, Char.isLower,
    Char.isDigit, Bool.or_eq_true, Bool.and_eq_true, decide_eq_true_eq, UInt32.le_iff_toNat_le,
    ge_iff_le, List.mem_cons, List.not_mem_nil, or_false] at h
  simp only [isFloatSpace, List.mem_cons, List.not_mem_nil, or_false, decide_eq_true_eq] at hspace
  have hval : c.toNat = c.val.toNat := rfl
  rcases h with ((h | h) | h) | rfl | rfl | rfl
  · have : 'A'.val.toNat = 65 := rfl
    have : 'Z'.val.toNat = 90 := rfl
    omega
  · have : 'a'.val.toNat = 97 := rfl
    have : 'z'.val.toNat = 122 := rfl
    omega
  · have : '0'.val.toNat = 48 := rfl
    have : '9'.val.toNat = 57 := rfl
    omega
  all_goals revert hspace; decide

theorem ne_underscore {c : Char} (h : isLiteralChar c = true) : c ≠ '_' := by
  rintro rfl
  revert h
  decide

theorem withoutUnderscores_of_all {s : List Char} {prev : Char} (hprev : prev ≠ '_')
    (h : s.all isLiteralChar = true) : withoutUnderscores prev s = some s := by
  induction s generalizing prev with
  | nil => rw [withoutUnderscores, if_neg hprev]
  | cons c s ih =>
    rw [List.all_cons, Bool.and_eq_true] at h
    have hc := ne_underscore h.1
    rw [withoutUnderscores, if_neg hc, if_neg fun hp => hprev hp.1, ih hc h.2]
    rfl

theorem isFloatSpace_of_isWhiteSpace {bytes : List UInt8} {c : Char} (hc : c ∈ latin1 bytes)
    (h : isWhiteSpace c = true) : isFloatSpace c = true := by
  obtain ⟨b, -, rfl⟩ := List.mem_map.mp hc
  have hlt : (Char.ofUInt8 b).toNat < 256 := b.toNat_lt
  simp only [isWhiteSpace, List.mem_cons, List.not_mem_nil, or_false, decide_eq_true_eq] at h
  simp only [isFloatSpace, List.mem_cons, List.not_mem_nil, or_false, decide_eq_true_eq]
  omega

theorem pyLiteral_nil : pyLiteral [] = none := by decide

/-- Before the letter of another base stands a zero, and `float` reads no further. -/
theorem pyLiteral_of_radix {c : Char} {ds : List Char} {base : ℕ} (h : radix c = some base) :
    pyLiteral ('0' :: c :: ds) = none := by
  have hc : c ≠ '.' ∧ c ≠ 'e' ∧ c ≠ 'E' ∧ c.isDigit = false := by
    rw [radix] at h
    split_ifs at h with hx ho hb
    · rcases hx with rfl | rfl <;> decide
    · rcases ho with rfl | rfl <;> decide
    · rcases hb with rfl | rfl <;> decide
  have hdigits : Json.digits ('0' :: c :: ds) = (['0'], c :: ds) := by
    rw [Json.digits, List.span_eq_takeWhile_dropWhile,
      List.takeWhile_cons_of_pos (show '0'.isDigit = true by decide),
      List.takeWhile_cons_of_neg (by simp [hc.2.2.2]),
      List.dropWhile_cons_of_pos (show '0'.isDigit = true by decide),
      List.dropWhile_cons_of_neg (by simp [hc.2.2.2])]
  have hfraction : fraction (c :: ds) = ([], c :: ds) := by
    rw [fraction.eq_def]
    split
    · rename_i heq
      exact absurd (List.cons.inj heq).1 hc.1
    · rfl
  have hmagnitude : magnitude ('0' :: c :: ds) = none := by
    rw [magnitude, hdigits, hfraction]
    dsimp only
    rw [if_neg (by simp), exponent, if_neg (by simp [hc.2.1, hc.2.2.1])]
    rfl
  have hsign : sign ('0' :: c :: ds) = (false, '0' :: c :: ds) := rfl
  have hword : ∀ w : List Char, w.head? ≠ some '0' → ('0' :: c :: ds).map Char.toLower ≠ w := by
    rintro w hw rfl
    exact hw rfl
  rw [pyLiteral, hsign]
  dsimp only
  rw [if_neg (not_or.mpr ⟨hword _ (by decide), hword _ (by decide)⟩),
    if_neg (hword _ (by decide)), decimal, hsign, hmagnitude]
  rfl

/-- What both read as a finite number is the same number. -/
theorem eq_of_number_of_pyFloat {bytes : List UInt8} {x y : ℚ}
    (hx : number (latin1 bytes) = .finite x) (hy : pyFloat (latin1 bytes) = some (.finite y)) :
    x = y := by
  have hjs : jsLiteral (trim (latin1 bytes)) = some (.finite x) := by
    rw [number] at hx
    cases h : jsLiteral (trim (latin1 bytes)) with
    | none => rw [h] at hx; cases hx
    | some z => rw [h] at hx; exact congrArg some hx
  have hall : (trim (latin1 bytes)).all isLiteralChar = true := by
    rcases jsLiteral_cases hjs with h | ⟨c, ds, base, -, -, h⟩ | h
    · rw [h]
      rfl
    · exact h
    · exact all_of_decimal h
  have hstrip : stripFloatSpace (latin1 bytes) = trim (latin1 bytes) := by
    apply stripEnds_congr fun c hc => isFloatSpace_of_isWhiteSpace hc
    exact fun c hc => not_isFloatSpace (List.all_eq_true.mp hall c hc)
  rw [pyFloat, hstrip, withoutUnderscores_of_all (by decide) hall, Option.bind_some] at hy
  rcases jsLiteral_cases hjs with h | ⟨c, ds, base, h, hbase, -⟩ | h
  · rw [h, pyLiteral_nil] at hy
    cases hy
  · rw [h, pyLiteral_of_radix hbase] at hy
    cases hy
  · rw [pyLiteral] at hy
    split_ifs at hy
    · cases hy
    · cases hy
    · rw [h] at hy
      exact Numeric.finite.inj (Option.some.inj hy)

/-! ## Decimals without a sign -/

/-- A decimal without a sign begins with a digit or a point. -/
theorem head_of_magnitude {s : List Char} {x : ℚ} (h : magnitude s = some x) :
    ∃ c t, s = c :: t ∧ (c.isDigit = true ∨ c = '.') := by
  cases s with
  | nil => cases h
  | cons c t =>
    refine ⟨c, t, rfl, ?_⟩
    by_contra hnot
    obtain ⟨hdigit, hpoint⟩ := not_or.mp hnot
    have hdigits : Json.digits (c :: t) = ([], c :: t) := by
      rw [Json.digits, List.span_eq_takeWhile_dropWhile, List.takeWhile_cons_of_neg hdigit,
        List.dropWhile_cons_of_neg hdigit]
    have hfraction : fraction (c :: t) = ([], c :: t) := by
      rw [fraction.eq_def]
      split
      · rename_i heq
        exact absurd (List.cons.inj heq).1 hpoint
      · rfl
    rw [magnitude, hdigits, hfraction] at h
    cases h

theorem toLower_eq_self {c : Char} (h : c.isDigit = true ∨ c = '.') : c.toLower = c := by
  rcases h with h | rfl
  · rw [Char.toLower, dif_neg]
    rintro ⟨hA, -⟩
    simp only [Char.isDigit, Bool.and_eq_true, decide_eq_true_eq] at h
    have h9 : c.val ≤ '9'.val := h.2
    have hlt : 'A'.val ≤ '9'.val := UInt32.le_trans hA h9
    exact absurd hlt (by decide)
  · decide

theorem sign_of_magnitude {s : List Char} {x : ℚ} (h : magnitude s = some x) :
    sign s = (false, s) := by
  obtain ⟨c, t, rfl, hc⟩ := head_of_magnitude h
  rw [sign.eq_def]
  split
  · rename_i heq
    exact absurd ((List.cons.inj heq).1 ▸ hc) (by decide)
  · rename_i heq
    exact absurd ((List.cons.inj heq).1 ▸ hc) (by decide)
  · rfl

theorem decimal_of_magnitude {s : List Char} {x : ℚ} (h : magnitude s = some x) :
    decimal s = some (.ofRat x) := by
  rw [decimal, sign_of_magnitude h, h]
  rfl

theorem pyLiteral_of_magnitude {s : List Char} {x : ℚ} (h : magnitude s = some x) :
    pyLiteral s = some (.ofRat x) := by
  -- the first character of a word is neither
  have hword : ∀ w : List Char, (w.head?.any fun c => c.isDigit || c = '.') = false →
      s.map Char.toLower ≠ w := by
    rintro w hw rfl
    obtain ⟨c, t, rfl, hc⟩ := head_of_magnitude h
    rw [List.map_cons, toLower_eq_self hc, List.head?_cons, Option.any_some] at hw
    rcases hc with hc | hc <;> simp [hc] at hw
  rw [pyLiteral, sign_of_magnitude h, decimal_of_magnitude h]
  dsimp only
  rw [if_neg (not_or.mpr ⟨hword _ (by decide), hword _ (by decide)⟩),
    if_neg (hword _ (by decide))]

theorem jsLiteral_of_magnitude {s : List Char} {x : ℚ} (h : magnitude s = some x) :
    jsLiteral s = some (.ofRat x) := by
  rw [jsLiteral.eq_def]
  split
  · cases h
  · rename_i c ds
    split
    · rename_i base hbase
      have hpy := pyLiteral_of_magnitude h
      rw [pyLiteral_of_radix hbase] at hpy
      cases hpy
    · exact decimal_of_magnitude h
  · rw [if_neg, decimal_of_magnitude h]
    intro hword
    obtain ⟨c, t, hs, hc⟩ := head_of_magnitude h
    rw [sign_of_magnitude h, hs] at hword
    exact absurd ((List.cons.inj hword).1 ▸ hc) (by decide)

/-- Both clients read a decimal, as the double next to it. -/
theorem both_of_magnitude {bytes : List UInt8} {x : ℚ} (h : magnitude (latin1 bytes) = some x) :
    number (latin1 bytes) = .ofRat x ∧ pyFloat (latin1 bytes) = some (.ofRat x) := by
  have hall := all_of_magnitude h
  have hspace : ∀ c ∈ latin1 bytes, isFloatSpace c = false := fun c hc =>
    not_isFloatSpace (List.all_eq_true.mp hall c hc)
  constructor
  · rw [number, trim, stripEnds_of_forall, jsLiteral_of_magnitude h]
    · rfl
    · intro c hc
      rw [Bool.eq_false_iff]
      intro hwhite
      exact Bool.false_ne_true ((hspace c hc).symm.trans (isFloatSpace_of_isWhiteSpace hc hwhite))
  · rw [pyFloat, stripFloatSpace, stripEnds_of_forall hspace,
      withoutUnderscores_of_all (by decide) hall]
    exact pyLiteral_of_magnitude h

theorem magnitude_nonneg {s : List Char} {x : ℚ} (h : magnitude s = some x) : 0 ≤ x := by
  rw [magnitude] at h
  split at h
  · cases h
  · obtain ⟨e, -, rfl⟩ := Option.map_eq_some_iff.mp h
    exact mul_nonneg (Nat.cast_nonneg _) (zpow_nonneg (by norm_num) _)

/-! ## Rounding -/

theorem floor_le_roundHalfEven (x : ℚ) : ⌊x⌋ ≤ Json.roundHalfEven x := by
  rw [Json.roundHalfEven, round]
  split
  · exact le_rfl
  · split
    · exact le_rfl
    · exact Int.floor_le_ceil x

theorem roundHalfEven_le_ceil (x : ℚ) : Json.roundHalfEven x ≤ ⌈x⌉ := by
  rw [Json.roundHalfEven, round]
  split
  · exact Int.floor_le_ceil x
  · split
    · exact Int.floor_le_ceil x
    · exact le_rfl

/-- A whole number is a multiple of every unit that is not above one. -/
theorem exists_mul_unit (n : ℕ) {e : ℤ} (he : e ≤ 0) : ∃ m : ℤ, (n : ℚ) = m * 2 ^ e := by
  obtain ⟨k, rfl⟩ := Int.exists_eq_neg_ofNat he
  refine ⟨n * 2 ^ k, ?_⟩
  rw [Int.cast_mul, Int.cast_pow, Int.cast_natCast, Int.cast_ofNat, zpow_neg, zpow_natCast,
    mul_assoc, mul_inv_cancel₀ (by positivity), mul_one]

theorem le_round_mul {n : ℕ} {y : ℚ} {e : ℤ} (he : e ≤ 0) (h : (n : ℚ) ≤ y) :
    (n : ℚ) ≤ Json.roundHalfEven (y / 2 ^ e) * 2 ^ e := by
  obtain ⟨m, hm⟩ := exists_mul_unit n he
  have hunit : (0 : ℚ) < 2 ^ e := zpow_pos two_pos e
  have hfloor : m ≤ ⌊y / 2 ^ e⌋ := by
    rw [Int.le_floor, le_div_iff₀ hunit, ← hm]
    exact h
  rw [hm]
  apply mul_le_mul_of_nonneg_right _ hunit.le
  exact_mod_cast hfloor.trans (floor_le_roundHalfEven _)

theorem round_mul_le {n : ℕ} {y : ℚ} {e : ℤ} (he : e ≤ 0) (h : y ≤ n) :
    Json.roundHalfEven (y / 2 ^ e) * 2 ^ e ≤ (n : ℚ) := by
  obtain ⟨m, hm⟩ := exists_mul_unit n he
  have hunit : (0 : ℚ) < 2 ^ e := zpow_pos two_pos e
  have hceil : ⌈y / 2 ^ e⌉ ≤ m := by
    rw [Int.ceil_le, div_le_iff₀ hunit, ← hm]
    exact h
  rw [hm]
  apply mul_le_mul_of_nonneg_right _ hunit.le
  exact_mod_cast (roundHalfEven_le_ceil _).trans hceil

/-- A double is not below a whole number that the rounded number is not below. -/
theorem le_of_ofRat {n : ℕ} {y z : ℚ} (hn : n < 2 ^ 53) (h : (n : ℚ) ≤ y)
    (hz : Numeric.ofRat y = .finite z) : (n : ℚ) ≤ z := by
  rw [Numeric.ofRat, Json.ofDecimal] at hz
  split_ifs at hz with hbig
  · cases hz
  obtain rfl := Numeric.finite.inj hz
  by_cases he : max (Int.log 2 |y|) (-1022) - 52 ≤ 0
  · exact le_round_mul he h
  · -- The unit is above one, so `y` is at least 2 ^ 53 and so is its double.
    have hlog : max (Int.log 2 |y|) (-1022) = Int.log 2 |y| := by
      apply max_eq_left
      by_contra hlt
      rw [max_eq_right (by omega)] at he
      omega
    rw [hlog] at he ⊢
    have hpos : 0 < |y| := by
      by_contra hzero
      rw [Int.log_of_right_le_zero _ (not_lt.mp hzero)] at he
      omega
    have hy : y = |y| := (abs_of_nonneg ((Nat.cast_nonneg n).trans h)).symm
    have hunit : (0 : ℚ) < 2 ^ (Int.log 2 |y| - 52) := zpow_pos two_pos _
    have hself := Int.zpow_log_le_self (b := 2) one_lt_two hpos
    have hfloor : (2 : ℤ) ^ 52 ≤ ⌊y / 2 ^ (Int.log 2 |y| - 52)⌋ := by
      rw [Int.le_floor, le_div_iff₀ hunit]
      calc ((2 ^ 52 : ℤ) : ℚ) * 2 ^ (Int.log 2 |y| - 52)
          = 2 ^ Int.log 2 |y| := by
            rw [show ((2 ^ 52 : ℤ) : ℚ) = 2 ^ (52 : ℤ) by norm_cast,
              ← zpow_add₀ two_ne_zero, add_sub_cancel]
        _ ≤ y := by
            rw [← hy] at hself ⊢
            exact_mod_cast hself
    have hround : ((2 ^ 52 : ℤ) : ℚ) ≤ Json.roundHalfEven (y / 2 ^ (Int.log 2 |y| - 52)) := by
      exact_mod_cast hfloor.trans (floor_le_roundHalfEven _)
    have htwo : (2 : ℚ) ≤ 2 ^ (Int.log 2 |y| - 52) := by
      calc (2 : ℚ) = 2 ^ (1 : ℤ) := (zpow_one 2).symm
        _ ≤ 2 ^ (Int.log 2 |y| - 52) := zpow_le_zpow_right₀ one_le_two (by omega)
    calc (n : ℚ) ≤ 2 ^ 53 := by exact_mod_cast hn.le
      _ = ((2 ^ 52 : ℤ) : ℚ) * 2 := by norm_num
      _ ≤ _ := mul_le_mul hround htwo zero_le_two (le_trans (by norm_num) hround)

/-- A number between zero and a whole number is next to a double between them. -/
theorem ofRat_le {n : ℕ} {y : ℚ} (hn : n < 2 ^ 53) (hy : 0 ≤ y) (h : y ≤ n) :
    ∃ z, Numeric.ofRat y = .finite z ∧ 0 ≤ z ∧ z ≤ n := by
  have he : max (Int.log 2 |y|) (-1022) - 52 ≤ 0 := by
    have hlog : Int.log 2 |y| < 53 := by
      rw [abs_of_nonneg hy]
      rcases hy.eq_or_lt with rfl | hpos
      · rw [Int.log_zero_right]
        omega
      · apply (Int.lt_zpow_iff_log_lt one_lt_two hpos).mp
        calc y ≤ n := h
          _ < 2 ^ 53 := by exact_mod_cast hn
          _ = _ := by norm_cast
    omega
  have hle := round_mul_le he h
  have hnonneg := le_round_mul (n := 0) he (by exact_mod_cast hy)
  rw [Nat.cast_zero] at hnonneg
  refine ⟨_, ?_, hnonneg, hle⟩
  rw [Numeric.ofRat, Json.ofDecimal, if_neg]
  · rfl
  rw [abs_of_nonneg hnonneg, not_le]
  calc _ ≤ (n : ℚ) := hle
    _ < 2 ^ 53 := by exact_mod_cast hn
    _ ≤ 2 ^ 1024 := pow_le_pow_right₀ one_le_two (by decide)

/-- A small whole number is a double. -/
theorem ofRat_natCast {n : ℕ} (hn : n < 2 ^ 53) : Numeric.ofRat n = .finite n := by
  obtain ⟨z, hz, -, hle⟩ := ofRat_le hn (Nat.cast_nonneg n) le_rfl
  rw [hz, hle.antisymm (le_of_ofRat hn le_rfl hz)]

end Sdk

end CloudMesh
