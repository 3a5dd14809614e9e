import CloudMesh.Json
import CloudMesh.JsonText

/-!
# JSON texts in JSON texts

A text that can be parsed can be parsed where it stands in a larger one, so that what is put
together from texts, as `JSON.stringify` does it, is parsed as what it has been put together from.

## Main definitions

- `Json.value_append` — the parser does not look at what follows a value
- `Json.parse_quote` — a quoted string
- `Json.objectText`, `Json.parse_objectText` — the text of an object
-/

namespace CloudMesh

namespace Json

/-! ## What follows a value -/

/-- A literal ends before the character. -/
def endsLiteral (c : Char) : Bool :=
  !c.isDigit && c ≠ '.' && c ≠ 'e' && c ≠ 'E'

/-- A literal ends before the text. -/
def Stops (s : List Char) : Prop := ∀ c ∈ s.head?, endsLiteral c = true

section Append

variable {s r rest t : List Char} {c : Char}

theorem stops_cons (h : endsLiteral c = true) : Stops (c :: s) := by
  intro d hd
  cases hd
  exact h

theorem skipSpace_append (h : skipSpace s = c :: t) : skipSpace (s ++ rest) = c :: (t ++ rest) := by
  unfold skipSpace at h ⊢
  rw [List.dropWhile_append, h]
  rfl

theorem skipSpace_append_nil (h : skipSpace s = []) : skipSpace (s ++ rest) = skipSpace rest := by
  unfold skipSpace at h ⊢
  rw [List.dropWhile_append, h]
  rfl

theorem stringTail_append {units : JsString} (h : stringTail s = some (units, r)) :
    stringTail (s ++ rest) = some (units, r ++ rest) := by
  induction s using stringTail.induct generalizing units r with
  | case1 => cases h
  | case2 s =>
    cases h
    rfl
  | case3 a b c d s ih =>
    simp only [stringTail, Option.bind_eq_bind, Option.bind_eq_some_iff] at h
    obtain ⟨unit, hunit, ⟨units, t⟩, htail, hr⟩ := h
    cases hr
    simp only [List.cons_append, stringTail, hunit, ih htail]
    rfl
  | case4 c s hu ih =>
    rw [stringTail] at h
    · simp only [Option.bind_eq_bind, Option.bind_eq_some_iff] at h
      obtain ⟨unit, hunit, ⟨units, t⟩, htail, hr⟩ := h
      cases hr
      have hc : c ≠ 'u' := by
        rintro rfl
        cases hunit
      rw [List.cons_append, List.cons_append, stringTail]
      · simp only [hunit, ih htail]
        rfl
      · intro a b d e s' hcu
        exact absurd hcu hc
    · exact hu
  | case5 c s hquote hunicode hescape ih =>
    rw [stringTail] at h
    · simp only [Option.bind_eq_bind, Option.bind_eq_some_iff] at h
      obtain ⟨_, hguard, ⟨units, t⟩, htail, hr⟩ := h
      cases hr
      have hc : c ≠ '\\' := by
        rintro rfl
        cases s with
        | nil => cases htail
        | cons d s => exact hescape d s rfl rfl
      rw [List.cons_append, stringTail]
      · simp only [hguard, ih htail]
        rfl
      · exact hquote
      · intro a b d e s' hcb
        exact absurd hcb hc
      · intro d s' hcb
        exact absurd hcb hc
    · exact hquote
    · exact hunicode
    · exact hescape

/-! Numbers -/

theorem digits_eq (s : List Char) :
    digits s = (s.takeWhile Char.isDigit, s.dropWhile Char.isDigit) :=
  List.span_eq_takeWhile_dropWhile _ _

theorem digits_of_stops (h : Stops s) : digits s = ([], s) := by
  rw [digits_eq]
  cases s with
  | nil => rfl
  | cons c s =>
    have hc : c.isDigit = false := by
      have hends := h c rfl
      simp only [endsLiteral, Bool.and_eq_true, Bool.not_eq_true'] at hends
      exact hends.1.1.1
    rw [List.takeWhile_cons_of_neg (by simp [hc]), List.dropWhile_cons_of_neg (by simp [hc])]

theorem digits_append (h : (digits s).2 = [] → Stops rest) :
    digits (s ++ rest) = ((digits s).1, (digits s).2 ++ rest) := by
  induction s with
  | nil => exact digits_of_stops (h rfl)
  | cons c s ih =>
    by_cases hc : c.isDigit = true
    · have hcons : ∀ t, digits (c :: t) = (c :: (digits t).1, (digits t).2) := by
        intro t
        rw [digits_eq, digits_eq, List.takeWhile_cons_of_pos hc, List.dropWhile_cons_of_pos hc]
      rw [hcons] at h ⊢
      rw [List.cons_append, hcons, ih h]
    · have hcons : ∀ t, digits (c :: t) = ([], c :: t) := by
        intro t
        rw [digits_eq, List.takeWhile_cons_of_neg hc, List.dropWhile_cons_of_neg hc]
      rw [hcons, List.cons_append, hcons]

theorem sign_append (h : s ≠ []) : sign (s ++ rest) = ((sign s).1, (sign s).2 ++ rest) := by
  cases s with
  | nil => exact absurd rfl h
  | cons c s =>
    by_cases hc : c = '-'
    · subst hc
      rfl
    · have hsign : ∀ t, sign (c :: t) = (false, c :: t) := by
        intro t
        rw [sign]
        intro t' ht
        exact hc (List.cons.inj ht).1
      rw [List.cons_append, hsign, hsign]
      rfl

theorem fraction_of_ne (h : ∀ t, s ≠ '.' :: t) : fraction s = some ([], s) := by
  rw [fraction]
  exact h

theorem Stops.ne_cons (h : Stops s) (hc : endsLiteral c = false) (t : List Char) : s ≠ c :: t := by
  rintro rfl
  have hends := h c rfl
  rw [hc] at hends
  cases hends

theorem fraction_append {ds : List Char} (h : fraction s = some (ds, r))
    (hstop : r = [] → Stops rest) : fraction (s ++ rest) = some (ds, r ++ rest) := by
  unfold fraction at h
  split at h
  · rename_i s
    split at h
    · cases h
    · rename_i hds
      have hread := Option.some.inj h
      have happend : digits (s ++ rest) = ((digits s).1, (digits s).2 ++ rest) :=
        digits_append fun hnil => hstop (by rw [hread] at hnil; exact hnil)
      rw [List.cons_append, fraction, happend, if_neg hds, hread]
  · rename_i hdot
    cases h
    apply fraction_of_ne
    intro t ht
    cases s with
    | nil => exact (hstop rfl).ne_cons rfl t ht
    | cons c s => exact hdot s (by rw [(List.cons.inj ht).1])

/-- The sign of an exponent. -/
def exponentSign : List Char → Bool × List Char
  | '+' :: s => (false, s)
  | s => sign s

theorem exponentSign_append (h : s ≠ []) :
    exponentSign (s ++ rest) = ((exponentSign s).1, (exponentSign s).2 ++ rest) := by
  cases s with
  | nil => exact absurd rfl h
  | cons c s =>
    by_cases hc : c = '+'
    · subst hc
      rfl
    · have hsign : ∀ t, exponentSign (c :: t) = sign (c :: t) := by
        intro t
        rw [exponentSign]
        intro t' ht
        exact hc (List.cons.inj ht).1
      rw [List.cons_append, hsign, hsign, ← List.cons_append, sign_append (List.cons_ne_nil c s)]

/-- The digits of an exponent after its sign. -/
def exponentDigits (signed : Bool × List Char) : Option (ℤ × List Char) :=
  if (digits signed.2).1 = [] then none
  else some (if signed.1 then -(natOfDigits (digits signed.2).1 : ℤ)
    else natOfDigits (digits signed.2).1, (digits signed.2).2)

theorem exponent_cons (c : Char) (s : List Char) : exponent (c :: s) =
    if c = 'e' ∨ c = 'E' then exponentDigits (exponentSign s) else some (0, c :: s) := by
  rfl

theorem exponent_of_stops (h : Stops s) : exponent s = some (0, s) := by
  cases s with
  | nil => rfl
  | cons c s =>
    have hc : ¬(c = 'e' ∨ c = 'E') := by
      rintro (rfl | rfl)
      · exact h.ne_cons rfl s rfl
      · exact h.ne_cons rfl s rfl
    rw [exponent_cons, if_neg hc]

theorem exponent_append {e : ℤ} (h : exponent s = some (e, r)) (hstop : r = [] → Stops rest) :
    exponent (s ++ rest) = some (e, r ++ rest) := by
  cases s with
  | nil =>
    cases h
    exact exponent_of_stops (hstop rfl)
  | cons c s =>
    rw [List.cons_append, exponent_cons] at *
    by_cases hc : c = 'e' ∨ c = 'E'
    · rw [if_pos hc] at h ⊢
      unfold exponentDigits at h ⊢
      have hs : s ≠ [] := by
        rintro rfl
        cases h
      split at h
      · cases h
      · rename_i hds
        obtain ⟨rfl, rfl⟩ := Prod.mk.inj (Option.some.inj h)
        rw [exponentSign_append hs]
        dsimp only
        rw [digits_append hstop, if_neg hds]
    · rw [if_neg hc] at h ⊢
      cases h
      rfl

theorem numberLiteral_append {x : Json} (h : numberLiteral s = some (x, r))
    (hstop : r = [] → Stops rest) : numberLiteral (s ++ rest) = some (x, r ++ rest) := by
  simp only [numberLiteral, Option.bind_eq_bind, Option.bind_eq_some_iff] at h
  obtain ⟨_, hint, ⟨frac, t⟩, hfrac, ⟨e, u⟩, hexp, hr⟩ := h
  cases hr
  have hs : s ≠ [] := by
    rintro rfl
    cases hint
  -- what follows stops each part that has come to the end of the text
  have ht : t = [] → Stops rest := by
    rintro rfl
    exact hstop (List.eq_nil_of_length_eq_zero (Nat.le_zero.mp (length_of_exponent hexp)))
  have hint' : (digits (sign s).2).2 = [] → Stops rest := by
    intro hnil
    have hlen := length_of_fraction hfrac
    rw [hnil] at hlen
    exact ht (List.eq_nil_of_length_eq_zero (Nat.le_zero.mp hlen))
  simp only [numberLiteral, Option.bind_eq_bind, Option.bind_eq_some_iff]
  rw [sign_append hs, digits_append hint']
  exact ⟨_, hint, ⟨frac, t ++ rest⟩, fraction_append hfrac ht, ⟨e, u ++ rest⟩,
    exponent_append hexp hstop, rfl⟩

/-! Values -/

/-- A character that numbers start with. -/
def startsNumber (c : Char) : Bool := c = '-' || c.isDigit

theorem startsNumber_of_numberLiteral {x : Json} (h : numberLiteral s = some (x, r)) :
    ∃ c t, s = c :: t ∧ startsNumber c = true := by
  simp only [numberLiteral, Option.bind_eq_bind, Option.bind_eq_some_iff] at h
  obtain ⟨_, hint, -⟩ := h
  cases s with
  | nil => cases hint
  | cons c s =>
    refine ⟨c, s, rfl, ?_⟩
    by_contra hc
    simp only [startsNumber, Bool.or_eq_true, decide_eq_true_eq, not_or] at hc
    have hsign : sign (c :: s) = (false, c :: s) := by
      rw [sign]
      intro t ht
      exact hc.1 (List.cons.inj ht).1
    rw [hsign, digits_eq, List.takeWhile_cons_of_neg hc.2] at hint
    simp [guard] at hint

theorem scalar_of_startsNumber (h : startsNumber c = true) :
    scalar (c :: s) = numberLiteral (c :: s) := by
  have hne : ∀ d, startsNumber d = false → c ≠ d := by
    rintro d hd rfl
    rw [h] at hd
    cases hd
  rw [scalar]
  · exact fun t ht => hne _ (by decide) (List.cons.inj ht).1
  · exact fun t ht => hne _ (by decide) (List.cons.inj ht).1
  · exact fun t ht => hne _ (by decide) (List.cons.inj ht).1
  · exact fun t ht => hne _ (by decide) (List.cons.inj ht).1

theorem scalar_append {x : Json} (h : scalar s = some (x, r)) (hstop : r = [] → Stops rest) :
    scalar (s ++ rest) = some (x, r ++ rest) := by
  unfold scalar at h
  split at h
  · obtain ⟨⟨units, t⟩, htail, hr⟩ := Option.map_eq_some_iff.mp h
    cases hr
    rw [List.cons_append, scalar, stringTail_append htail]
    rfl
  · cases h
    rfl
  · cases h
    rfl
  · cases h
    rfl
  · obtain ⟨c, t, rfl, hc⟩ := startsNumber_of_numberLiteral h
    rw [List.cons_append, scalar_of_startsNumber hc]
    exact numberLiteral_append h hstop

/-- What stands between the brackets, and what follows. -/
def arrayTail (n : ℕ) (s : List Char) : Option (Json × List Char) :=
  match skipSpace s with
  | ']' :: s => some (.array [], s)
  | s => (items n s).map fun (xs, s) => (.array xs, s)

def objectTail (n : ℕ) (s : List Char) : Option (Json × List Char) :=
  match skipSpace s with
  | '\x7d' :: s => some (.object [], s)
  | s => (members n s []).map fun (fields, s) => (.object fields, s)

theorem value_of_bracket {n : ℕ} (h : skipSpace s = '[' :: t) :
    value (n + 1) s = arrayTail n t := by
  rw [value, h]
  rfl

theorem value_of_brace {n : ℕ} (h : skipSpace s = '\x7b' :: t) :
    value (n + 1) s = objectTail n t := by
  rw [value, h]
  rfl

theorem value_of_ne {n : ℕ} (h : skipSpace s = c :: t) (hbracket : c ≠ '[') (hbrace : c ≠ '\x7b') :
    value (n + 1) s = scalar (c :: t) := by
  rw [value, h]
  split
  · rename_i heq
    exact absurd (List.cons.inj heq).1 hbracket
  · rename_i heq
    exact absurd (List.cons.inj heq).1 hbrace
  · rfl

theorem arrayTail_of_ne {n : ℕ} (h : skipSpace s = c :: t) (hc : c ≠ ']') :
    arrayTail n s = (items n (c :: t)).map fun (xs, s) => (.array xs, s) := by
  rw [arrayTail, h]
  split
  · rename_i heq
    exact absurd (List.cons.inj heq).1 hc
  · rfl

theorem objectTail_of_ne {n : ℕ} (h : skipSpace s = c :: t) (hc : c ≠ '\x7d') :
    objectTail n s = (members n (c :: t) []).map fun (fields, s) => (.object fields, s) := by
  rw [objectTail, h]
  split
  · rename_i heq
    exact absurd (List.cons.inj heq).1 hc
  · rfl

theorem items_nil (n : ℕ) : items n [] = none := by
  cases hitems : items n [] with
  | none => rfl
  | some out => exact absurd ((fuel_suffices n).2.1 _ _ _ hitems).1 (Nat.not_lt_zero _)

theorem members_nil (n : ℕ) (fields : List (JsString × Json)) : members n [] fields = none := by
  cases hmembers : members n [] fields with
  | none => rfl
  | some out => exact absurd ((fuel_suffices n).2.2 _ _ _ _ hmembers).1 (Nat.not_lt_zero _)

theorem arrayTail_append {n : ℕ} {x : Json} (h : arrayTail n s = some (x, r))
    (ih : ∀ s xs r, items n s = some (xs, r) → items n (s ++ rest) = some (xs, r ++ rest)) :
    arrayTail n (s ++ rest) = some (x, r ++ rest) := by
  cases hs : skipSpace s with
  | nil =>
    rw [arrayTail, hs] at h
    simp [items_nil] at h
  | cons c t =>
    by_cases hc : c = ']'
    · subst hc
      rw [arrayTail, hs] at h
      cases h
      rw [arrayTail, skipSpace_append hs]
      rfl
    · rw [arrayTail_of_ne hs hc] at h
      obtain ⟨⟨xs, u⟩, hitems, hout⟩ := Option.map_eq_some_iff.mp h
      cases hout
      rw [arrayTail_of_ne (skipSpace_append hs) hc, ← List.cons_append, ih _ _ _ hitems]
      rfl

theorem objectTail_append {n : ℕ} {x : Json} (h : objectTail n s = some (x, r))
    (ih : ∀ s fields out r, members n s fields = some (out, r) →
      members n (s ++ rest) fields = some (out, r ++ rest)) :
    objectTail n (s ++ rest) = some (x, r ++ rest) := by
  cases hs : skipSpace s with
  | nil =>
    rw [objectTail, hs] at h
    simp [members_nil] at h
  | cons c t =>
    by_cases hc : c = '\x7d'
    · subst hc
      rw [objectTail, hs] at h
      cases h
      rw [objectTail, skipSpace_append hs]
      rfl
    · rw [objectTail_of_ne hs hc] at h
      obtain ⟨⟨fields, u⟩, hmembers, hout⟩ := Option.map_eq_some_iff.mp h
      cases hout
      rw [objectTail_of_ne (skipSpace_append hs) hc, ← List.cons_append, ih _ _ _ _ hmembers]
      rfl

theorem items_of_comma {n : ℕ} {x : Json} (hvalue : value n s = some (x, r))
    (h : skipSpace r = ',' :: t) :
    items (n + 1) s = (items n t).map fun (xs, s) => (x :: xs, s) := by
  rw [items, hvalue]
  dsimp only
  rw [h]
  rfl

theorem items_of_bracket {n : ℕ} {x : Json} (hvalue : value n s = some (x, r))
    (h : skipSpace r = ']' :: t) : items (n + 1) s = some ([x], t) := by
  rw [items, hvalue]
  dsimp only
  rw [h]
  rfl

/-- One field, before a comma and before the closing brace. -/
theorem members_of_field {n : ℕ} {key : JsString} {x : Json} {s₁ s₂ s₃ s₄ : List Char}
    (hquote : skipSpace s = '"' :: s₁) (hkey : stringTail s₁ = some (key, s₂))
    (hcolon : skipSpace s₂ = ':' :: s₃) (hvalue : value n s₃ = some (x, s₄))
    (fields : List (JsString × Json)) :
    (∀ t, skipSpace s₄ = ',' :: t →
      members (n + 1) s fields = members n t (insertField key x fields)) ∧
    ∀ t, skipSpace s₄ = '\x7d' :: t →
      members (n + 1) s fields = some (insertField key x fields, t) := by
  constructor
  · intro t h
    rw [members]
    simp only [hquote, hkey, hcolon, hvalue, h]
  · intro t h
    rw [members]
    simp only [hquote, hkey, hcolon, hvalue, h]

theorem append_fuel (n : ℕ) :
    (∀ s x r, value n s = some (x, r) → (r = [] → Stops rest) →
      value n (s ++ rest) = some (x, r ++ rest)) ∧
    (∀ s xs r, items n s = some (xs, r) → items n (s ++ rest) = some (xs, r ++ rest)) ∧
    ∀ s fields out r, members n s fields = some (out, r) →
      members n (s ++ rest) fields = some (out, r ++ rest) := by
  induction n with
  | zero =>
    refine ⟨fun s x r h => ?_, fun s xs r h => ?_, fun s fields out r h => ?_⟩
    · simp [value] at h
    · simp [items] at h
    · simp [members] at h
  | succ n ih =>
    obtain ⟨ihvalue, ihitems, ihmembers⟩ := ih
    refine ⟨fun s x r h hstop => ?_, fun s xs r h => ?_, fun s fields out r h => ?_⟩
    · cases hs : skipSpace s with
      | nil =>
        rw [value, hs] at h
        cases h
      | cons c t =>
        have happend : skipSpace (s ++ rest) = c :: (t ++ rest) := skipSpace_append hs
        by_cases hbracket : c = '['
        · subst hbracket
          rw [value_of_bracket hs] at h
          rw [value_of_bracket happend]
          exact arrayTail_append h ihitems
        · by_cases hbrace : c = '\x7b'
          · subst hbrace
            rw [value_of_brace hs] at h
            rw [value_of_brace happend]
            exact objectTail_append h ihmembers
          · rw [value_of_ne hs hbracket hbrace] at h
            rw [value_of_ne happend hbracket hbrace]
            exact scalar_append h hstop
    · -- what follows an item is a comma or the bracket, which stop it
      rw [items] at h
      split at h
      · cases h
      · rename_i x t hvalue
        have hstop : t = [] → Stops rest := by
          rintro rfl
          cases h
        have happend := ihvalue _ _ _ hvalue hstop
        split at h
        · rename_i u hu
          obtain ⟨⟨xs, v⟩, hitems, hout⟩ := Option.map_eq_some_iff.mp h
          cases hout
          rw [items_of_comma happend (skipSpace_append hu), ihitems _ _ _ hitems]
          rfl
        · rename_i u hu
          cases h
          exact items_of_bracket happend (skipSpace_append hu)
        · cases h
    · rw [members] at h
      split at h
      · rename_i t ht
        split at h
        · cases h
        · rename_i key u hkey
          split at h
          · rename_i v hv
            split at h
            · cases h
            · rename_i x w hvalue
              have hstop : w = [] → Stops rest := by
                rintro rfl
                cases h
              have happend := members_of_field (skipSpace_append ht) (stringTail_append hkey)
                (skipSpace_append hv) (ihvalue _ _ _ hvalue hstop) fields
              split at h
              · rename_i y hy
                rw [happend.1 _ (skipSpace_append hy)]
                exact ihmembers _ _ _ _ h
              · rename_i y hy
                cases h
                exact happend.2 _ (skipSpace_append hy)
              · cases h
          · cases h
      · cases h

theorem value_append {n : ℕ} {x : Json} (h : value n s = some (x, r))
    (hstop : r = [] → Stops rest) : value n (s ++ rest) = some (x, r ++ rest) :=
  (append_fuel n).1 s x r h hstop

/-- A text that is parsed is a value wherever a literal could end behind it. -/
theorem value_of_parse {x : Json} (h : parse s = some x) :
    ∃ n spaces, skipSpace spaces = [] ∧
      ∀ rest, Stops rest → value n (s ++ rest) = some (x, spaces ++ rest) := by
  obtain ⟨n, spaces, hvalue, hspaces⟩ := parse_eq_some_iff.mp h
  exact ⟨n, spaces, hspaces, fun rest hrest => value_append hvalue fun _ => hrest⟩

/-- An object ends at its brace: nothing but white space makes a longer text of it. -/
theorem skipSpace_of_parse_append {x y : Json} (hs : skipSpace s = '\x7b' :: t)
    (h : parse s = some x) (hlong : parse (s ++ rest) = some y) : skipSpace rest = [] := by
  obtain ⟨n, spaces, hvalue, hspaces⟩ := parse_eq_some_iff.mp h
  obtain ⟨m, r, hvalue', hr⟩ := parse_eq_some_iff.mp hlong
  cases n with
  | zero => simp [value] at hvalue
  | succ n =>
    rw [value_of_brace hs] at hvalue
    have happend : value (n + 1) (s ++ rest) = some (x, spaces ++ rest) := by
      rw [value_of_brace (skipSpace_append hs)]
      exact objectTail_append hvalue (append_fuel n).2.2
    have hfirst := value_mono (le_max_left (n + 1) m) happend
    have hsecond := value_mono (le_max_right (n + 1) m) hvalue'
    cases hfirst.symm.trans hsecond
    rwa [skipSpace_append_nil hspaces] at hr

end Append

/-! ## Numbers that are written -/

theorem head?_toDigits (n : ℕ) : (Nat.toDigits 10 n).head? = some '0' → n = 0 := by
  induction n using Nat.strongRecOn with
  | ind n ih =>
    by_cases hn : n < 10
    · rw [Nat.toDigits_of_lt_base hn]
      intro h
      have hdigit : ∀ d < 10, Nat.digitChar d = '0' → d = 0 := by decide
      exact hdigit n hn (Option.some.inj h)
    · rw [Nat.toDigits_of_base_le (by decide) (not_lt.mp hn),
        List.head?_append_of_ne_nil _ Nat.toDigits_ne_nil]
      intro h
      have hzero := ih (n / 10) (by omega) h
      omega

/-- A natural number is read as the double that is closest to it. -/
theorem parse_toDigits (n : ℕ) : parse (Nat.toDigits 10 n) = some (ofDecimal n) := by
  have hall : ∀ c ∈ Nat.toDigits 10 n, c.isDigit = true :=
    fun c hc => Nat.isDigit_of_mem_toDigits (by decide) (by decide) hc
  obtain ⟨c, t, hcons⟩ := List.exists_cons_of_ne_nil (Nat.toDigits_ne_nil (n := n) (b := 10))
  have hc : c.isDigit = true := hall c (hcons ▸ List.mem_cons_self)
  have hne : ∀ d, d.isDigit = false → c ≠ d := by
    rintro d hd rfl
    rw [hc] at hd
    cases hd
  have hdigits : digits (c :: t) = (c :: t, []) := by
    have htake : (Nat.toDigits 10 n ++ []).takeWhile Char.isDigit = _ :=
      List.takeWhile_append_of_pos hall
    have hdrop : (Nat.toDigits 10 n ++ []).dropWhile Char.isDigit = _ :=
      List.dropWhile_append_of_pos hall
    rw [List.append_nil] at htake hdrop
    rw [digits_eq, ← hcons, htake, hdrop, List.takeWhile_nil, List.append_nil, List.dropWhile_nil]
  have hsign : sign (c :: t) = (false, c :: t) := by
    rw [sign]
    exact fun u hu => hne '-' (by decide) (List.cons.inj hu).1
  have hguard : (guard (c :: t ≠ [] ∧ ((c :: t).head? = some '0' → (c :: t).length = 1)) :
      Option Unit) = some () := by
    refine if_pos ⟨List.cons_ne_nil c t, fun hhead => ?_⟩
    have hzero := head?_toDigits n (hcons ▸ hhead)
    subst hzero
    rw [← hcons, Nat.toDigits_zero]
    rfl
  have hnumber : natOfDigits (c :: t) = n := by
    rw [← hcons]
    exact Nat.ofDigitChars_ten_toDigits
  have hliteral : numberLiteral (c :: t) = some (ofDecimal n, []) := by
    simp only [numberLiteral, hsign, hdigits, hguard, fraction, exponent, Option.bind_eq_bind,
      Option.bind_some, Option.pure_def, List.append_nil, hnumber, List.length_nil]
    simp
  rw [parse_eq_some_iff, hcons]
  refine ⟨1, [], ?_, rfl⟩
  have hspace : skipSpace (c :: t) = c :: t := by
    have h1 := hne ' ' (by decide)
    have h2 := hne '\t' (by decide)
    have h3 := hne '\n' (by decide)
    have h4 := hne '\r' (by decide)
    rw [skipSpace, List.dropWhile_cons_of_neg (by simp [h1, h2, h3, h4])]
  rw [value_of_ne hspace (hne _ (by decide)) (hne _ (by decide)),
    scalar_of_startsNumber (by simp [startsNumber, hc]), hliteral]

/-! ## Quoted strings -/

theorem codeUnit_hexDigit {n : ℕ} (h : n < 32) :
    codeUnit '0' '0' (hexDigit (n / 16)) (hexDigit (n % 16)) = some (UInt16.ofNat n) := by
  revert n
  decide

theorem stringTail_escape (c : Char) (s : List Char) : stringTail (escape c ++ s) =
    (stringTail s).map fun (units, r) => (utf16Char c ++ units, r) := by
  unfold escape
  split_ifs with h1 h2 h3 h4 h5 h6 h7 h8
  all_goals try (subst c; cases hs : stringTail s <;> simp [stringTail, escaped, hs, utf16Char])
  · have hunit := codeUnit_hexDigit h8
    have hchar : utf16Char c = [UInt16.ofNat c.toNat] := if_pos (by omega)
    simp only [List.cons_append, List.nil_append, stringTail, hunit, hchar]
    cases stringTail s <;> rfl
  · rw [List.cons_append, List.nil_append, stringTail]
    · have hguard : (guard (32 ≤ c.toNat) : Option Unit) = some () := if_pos (by omega)
      simp only [hguard]
      cases stringTail s <;> rfl
    · exact h1
    · exact fun _ _ _ _ _ hc _ => h2 hc
    · exact fun _ _ hc _ => h2 hc

theorem stringTail_flatMap (cs s : List Char) : stringTail (cs.flatMap escape ++ '"' :: s) =
    some (cs.flatMap utf16Char, s) := by
  induction cs with
  | nil => rfl
  | cons c cs ih =>
    rw [List.flatMap_cons, List.append_assoc, stringTail_escape, ih]
    rfl

theorem toList_quote (s : String) :
    (quote s).toList = '"' :: (s.toList.flatMap escape ++ ['"']) :=
  String.toList_ofList

theorem stringTail_quote (s : String) (rest : List Char) :
    ∃ t, (quote s).toList ++ rest = '"' :: t ∧ stringTail t = some (utf16 s, rest) := by
  refine ⟨s.toList.flatMap escape ++ '"' :: rest, ?_, stringTail_flatMap _ _⟩
  rw [toList_quote, List.cons_append, List.append_assoc]
  rfl

theorem parse_quote (s : String) : parse (quote s).toList = some (.string (utf16 s)) := by
  rw [parse_eq_some_iff]
  refine ⟨1, [], ?_, rfl⟩
  obtain ⟨t, hquote, htail⟩ := stringTail_quote s []
  rw [List.append_nil] at hquote
  rw [hquote, value_of_ne rfl (by decide) (by decide), scalar, htail]
  rfl

/-! ## Objects -/

/-- A field, and what it stands for. -/
structure IsMember (field : String × List Char) (out : JsString × Json) : Prop where
  key : utf16 field.1 = out.1
  value : parse field.2 = some out.2

theorem isMember_of_parse {text : List Char} {x : Json} (key : String)
    (h : parse text = some x) : IsMember (key, text) (utf16 key, x) := ⟨rfl, h⟩

theorem isMember_quote (key s : String) :
    IsMember (key, (quote s).toList) (utf16 key, .string (utf16 s)) :=
  isMember_of_parse key (parse_quote s)

def memberText (field : String × List Char) : List Char :=
  (quote field.1).toList ++ ':' :: field.2

/-- `JSON.stringify` of an object, from the texts of its values. -/
def objectText (fields : List (String × List Char)) : List Char :=
  '\x7b' :: ([','].intercalate (fields.map memberText) ++ ['\x7d'])

theorem insertField_of_notMem {key : JsString} {x : Json} {fields : List (JsString × Json)}
    (h : key ∉ fields.map Prod.fst) : insertField key x fields = fields ++ [(key, x)] := by
  induction fields with
  | nil => rfl
  | cons field fields ih =>
    rw [List.map_cons, List.mem_cons, not_or] at h
    rw [insertField, if_neg (Ne.symm h.1), ih h.2]
    rfl

theorem insertField_of_nodup {out : JsString × Json} {fields outs : List (JsString × Json)}
    (h : ((fields ++ out :: outs).map Prod.fst).Nodup) :
    insertField out.1 out.2 fields = fields ++ [out] := by
  apply insertField_of_notMem
  rw [List.map_append, List.map_cons] at h
  intro hmem
  exact (List.nodup_append.mp h).2.2 _ hmem _ List.mem_cons_self rfl

/-- One field, with enough fuel. -/
theorem members_memberText {field : String × List Char} {out : JsString × Json}
    (h : IsMember field out) (t : List Char) : ∃ m, ∀ n, m ≤ n → ∀ acc,
      members (n + 1) (memberText field ++ ',' :: t) acc =
        members n t (insertField out.1 out.2 acc) ∧
      members (n + 1) (memberText field ++ '\x7d' :: t) acc =
        some (insertField out.1 out.2 acc, t) := by
  obtain ⟨m, spaces, hspaces, hvalue⟩ := value_of_parse h.value
  have hskip : ∀ c, skipSpace (c :: t) = c :: t → skipSpace (spaces ++ c :: t) = c :: t :=
    fun c hc => (skipSpace_append_nil hspaces).trans hc
  have hfield : ∀ n, m ≤ n → ∀ c, endsLiteral c = true → ∀ acc,
      (skipSpace (spaces ++ c :: t) = ',' :: t →
        members (n + 1) (memberText field ++ c :: t) acc =
          members n t (insertField out.1 out.2 acc)) ∧
      (skipSpace (spaces ++ c :: t) = '\x7d' :: t →
        members (n + 1) (memberText field ++ c :: t) acc =
          some (insertField out.1 out.2 acc, t)) := by
    intro n hn c hc acc
    obtain ⟨s₁, hquote, hkey⟩ := stringTail_quote field.1 (':' :: (field.2 ++ c :: t))
    have htext : skipSpace (memberText field ++ c :: t) = '"' :: s₁ := by
      rw [memberText, List.append_assoc, List.cons_append, hquote]
      rfl
    rw [h.key] at hkey
    have hmembers := members_of_field htext hkey rfl
      (value_mono hn (hvalue (c :: t) (stops_cons hc))) acc
    exact ⟨hmembers.1 t, hmembers.2 t⟩
  refine ⟨m, fun n hn acc => ⟨?_, ?_⟩⟩
  · exact (hfield n hn ',' rfl acc).1 (hskip _ rfl)
  · exact (hfield n hn '\x7d' rfl acc).2 (hskip _ rfl)

/-- What stands before the closing brace, after fields with other keys. -/
theorem members_intercalate {field : String × List Char} {fields : List (String × List Char)}
    {out : JsString × Json} {outs : List (JsString × Json)}
    (h : List.Forall₂ IsMember (field :: fields) (out :: outs)) (rest : List Char) :
    ∃ n, ∀ acc : List (JsString × Json), ((acc ++ out :: outs).map Prod.fst).Nodup →
      members n ([','].intercalate ((field :: fields).map memberText) ++ '\x7d' :: rest) acc =
        some (acc ++ out :: outs, rest) := by
  induction fields generalizing field out outs with
  | nil =>
    obtain ⟨hfield, hnil⟩ := List.forall₂_cons.mp h
    cases hnil
    obtain ⟨m, hm⟩ := members_memberText hfield rest
    refine ⟨m + 1, fun acc hnodup => ?_⟩
    show members (m + 1) ([','].intercalate [memberText field] ++ '\x7d' :: rest) acc = _
    rw [List.intercalate_singleton, (hm m le_rfl acc).2, insertField_of_nodup hnodup]
  | cons next fields ih =>
    obtain ⟨hfield, hrest⟩ := List.forall₂_cons.mp h
    cases hrest with
    | @cons _ out' _ outs hnext hfields =>
      obtain ⟨n, hn⟩ := ih (List.Forall₂.cons hnext hfields)
      obtain ⟨m, hm⟩ := members_memberText hfield
        ([','].intercalate ((next :: fields).map memberText) ++ '\x7d' :: rest)
      refine ⟨max m n + 1, fun acc hnodup => ?_⟩
      have htext : [','].intercalate ((field :: next :: fields).map memberText) ++
          '\x7d' :: rest = memberText field ++
            ',' :: ([','].intercalate ((next :: fields).map memberText) ++ '\x7d' :: rest) := by
        rw [List.map_cons, List.map_cons, List.intercalate_cons_cons]
        simp only [List.append_assoc, List.cons_append, List.nil_append]
      have hstep := (hm (max m n) (le_max_left m n) acc).1
      have hacc : (acc ++ [out]) ++ out' :: outs = acc ++ out :: out' :: outs := by
        rw [List.append_assoc]
        rfl
      rw [htext, hstep, insertField_of_nodup hnodup, ← hacc]
      exact members_mono (le_max_right m n) (hn (acc ++ [out]) (by rwa [hacc]))

/-- The fields of an object start with a quote. -/
theorem cons_intercalate (field : String × List Char) (fields : List (String × List Char))
    (rest : List Char) :
    ∃ t, [','].intercalate ((field :: fields).map memberText) ++ rest = '"' :: t := by
  have hquote : memberText field =
      '"' :: (field.1.toList.flatMap escape ++ ['"'] ++ ':' :: field.2) := by
    rw [memberText, toList_quote]
    rfl
  cases fields with
  | nil =>
    rw [List.map_singleton, List.intercalate_singleton, hquote]
    exact ⟨_, rfl⟩
  | cons next fields =>
    rw [List.map_cons, List.map_cons, List.intercalate_cons_cons, hquote]
    exact ⟨_, rfl⟩

/-- An object is what its fields stand for, if no key stands twice. -/
theorem parse_objectText {fields : List (String × List Char)} {outs : List (JsString × Json)}
    (h : List.Forall₂ IsMember fields outs) (hnodup : (outs.map Prod.fst).Nodup) :
    parse (objectText fields) = some (.object outs) := by
  rw [parse_eq_some_iff]
  cases h with
  | nil => exact ⟨1, [], rfl, rfl⟩
  | @cons field out fields outs hfield hfields =>
    obtain ⟨n, hn⟩ := members_intercalate (List.Forall₂.cons hfield hfields) []
    refine ⟨n + 1, [], ?_, rfl⟩
    obtain ⟨t, ht⟩ := cons_intercalate field fields ['\x7d']
    have hmembers := hn [] hnodup
    rw [ht] at hmembers
    rw [objectText, ht, value_of_brace rfl, objectTail_of_ne rfl (by decide), hmembers]
    rfl

end Json

end CloudMesh
