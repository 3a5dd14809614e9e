import Mathlib.Data.List.Basic

/-!
# Quoted strings

`JSON.stringify` of a string, and that quoted strings can be read back from what follows them, so
that texts built from quoted fields determine their fields.

## Main definitions

- `quote` — the JSON text of a string
- `quote_append_inj` — a quoted string is determined by any text that starts with it
-/

namespace CloudMesh

def hexDigit (n : ℕ) : Char := "0123456789abcdef".toList.getD n '0'

def hexValue (c : Char) : ℕ := "0123456789abcdef".toList.idxOf c

/-- One character inside quotes. -/
def escape (c : Char) : List Char :=
  if c = '"' then ['\\', '"']
  else if c = '\\' then ['\\', '\\']
  else if c = '\x08' then ['\\', 'b']
  else if c = '\x0c' then ['\\', 'f']
  else if c = '\n' then ['\\', 'n']
  else if c = '\r' then ['\\', 'r']
  else if c = '\t' then ['\\', 't']
  else if c.toNat < 32 then
    ['\\', 'u', '0', '0', hexDigit (c.toNat / 16), hexDigit (c.toNat % 16)]
  else [c]

def quote (s : String) : String :=
  String.ofList ('"' :: (s.toList.flatMap escape ++ ['"']))

/-- The first character of a quoted text, and what follows it; `none` at the closing quote. -/
def unescape : List Char → Option (Char × List Char)
  | '\\' :: '"' :: r => some ('"', r)
  | '\\' :: '\\' :: r => some ('\\', r)
  | '\\' :: 'b' :: r => some ('\x08', r)
  | '\\' :: 'f' :: r => some ('\x0c', r)
  | '\\' :: 'n' :: r => some ('\n', r)
  | '\\' :: 'r' :: r => some ('\r', r)
  | '\\' :: 't' :: r => some ('\t', r)
  | '\\' :: 'u' :: '0' :: '0' :: a :: b :: r =>
    some (Char.ofNat (16 * hexValue a + hexValue b), r)
  | '"' :: _ => none
  | c :: r => some (c, r)
  | [] => none

theorem hexValue_hexDigit {n : ℕ} (h : n < 16) : hexValue (hexDigit n) = n := by
  revert n
  decide

theorem unescape_escape (c : Char) (r : List Char) : unescape (escape c ++ r) = some (c, r) := by
  unfold escape
  split_ifs with h1 h2 h3 h4 h5 h6 h7 h8
  all_goals try (subst c; rfl)
  · have hhi : hexValue (hexDigit (c.toNat / 16)) = c.toNat / 16 := hexValue_hexDigit (by omega)
    have hlo : hexValue (hexDigit (c.toNat % 16)) = c.toNat % 16 := hexValue_hexDigit (by omega)
    simp only [List.cons_append, List.nil_append, unescape, hhi, hlo, Nat.div_add_mod]
    rw [Char.ofNat_toNat]
  · simp only [List.cons_append, List.nil_append]
    unfold unescape
    split <;> simp_all

theorem flatMap_escape_inj {s t x y : List Char}
    (h : s.flatMap escape ++ '"' :: x = t.flatMap escape ++ '"' :: y) : s = t ∧ x = y := by
  induction s generalizing t with
  | nil =>
    cases t with
    | nil => exact ⟨rfl, (List.cons.inj h).2⟩
    | cons d t =>
      have hread := congrArg unescape h
      simp only [List.flatMap_cons, List.append_assoc, unescape_escape] at hread
      cases hread
  | cons c s ih =>
    have hread := congrArg unescape h
    cases t with
    | nil =>
      simp only [List.flatMap_cons, List.append_assoc, unescape_escape] at hread
      cases hread
    | cons d t =>
      simp only [List.flatMap_cons, List.append_assoc, unescape_escape, Option.some.injEq,
        Prod.mk.injEq] at hread
      obtain ⟨rfl, hrest⟩ := hread
      obtain ⟨rfl, rfl⟩ := ih hrest
      exact ⟨rfl, rfl⟩

theorem quote_append_inj {s t x y : String} (h : quote s ++ x = quote t ++ y) :
    s = t ∧ x = y := by
  have hlist := congrArg String.toList h
  simp only [quote, String.toList_append, String.toList_ofList, List.cons_append,
    List.append_assoc, List.nil_append, List.cons.injEq, true_and] at hlist
  obtain ⟨hs, hx⟩ := flatMap_escape_inj hlist
  exact ⟨String.toList_inj.mp hs, String.toList_inj.mp hx⟩

end CloudMesh
