import Mathlib.Data.List.Basic
import Mathlib.Data.List.TakeWhile

/-!
# Base64 for URLs

Bytes as groups of six bits, and the groups as digits without padding. The encoder writes one text
for some bytes; the decoder reads many: it knows the digits of the other alphabet as well, looks at
the low byte of a code unit only, leaves out what is no digit, ends at the padding, and drops the
bits that are left over. What the encoder has written is told from all that by `Canonical`.

## Main definitions

- `sextets`, `octets` — bytes and groups of six bits
- `encode`, `decode` — texts
- `Canonical` — the texts that the encoder writes
- `encode_decode_iff` — what is written again as it was
-/

namespace Streams.Base64

/-! ## Groups of six bits -/

/-- Unused bits of the last group are zero. -/
def sextets : List UInt8 → List ℕ
  | x :: y :: z :: rest =>
    x.toNat / 4 :: (x.toNat % 4 * 16 + y.toNat / 16) :: (y.toNat % 16 * 4 + z.toNat / 64) ::
      z.toNat % 64 :: sextets rest
  | [x, y] => [x.toNat / 4, x.toNat % 4 * 16 + y.toNat / 16, y.toNat % 16 * 4]
  | [x] => [x.toNat / 4, x.toNat % 4 * 16]
  | [] => []

/-- Bits that make no byte are dropped. -/
def octets : List ℕ → List UInt8
  | a :: b :: c :: d :: rest =>
    UInt8.ofNat (a * 4 + b / 16) :: UInt8.ofNat (b % 16 * 16 + c / 4) ::
      UInt8.ofNat (c % 4 * 64 + d) :: octets rest
  | [a, b, c] => [UInt8.ofNat (a * 4 + b / 16), UInt8.ofNat (b % 16 * 16 + c / 4)]
  | [a, b] => [UInt8.ofNat (a * 4 + b / 16)]
  | _ => []

/-- The groups are those of whole bytes. -/
def Whole : List ℕ → Prop
  | _ :: _ :: _ :: _ :: rest => Whole rest
  | [_, _, c] => c % 4 = 0
  | [_, b] => b % 16 = 0
  | [_] => False
  | [] => True

variable {xs : List UInt8} {ns : List ℕ} {n : ℕ}

theorem ofNat_eq {x : UInt8} (h : n = x.toNat) : UInt8.ofNat n = x := by
  rw [h, UInt8.ofNat_toNat]

theorem octets_sextets (xs : List UInt8) : octets (sextets xs) = xs := by
  induction xs using sextets.induct with
  | case1 x y z rest ih =>
    have hy := y.toNat_lt
    have hz := z.toNat_lt
    rw [sextets, octets, ih, ofNat_eq (x := x) (by omega), ofNat_eq (x := y) (by omega),
      ofNat_eq (x := z) (by omega)]
  | case2 x y =>
    have hy := y.toNat_lt
    rw [sextets, octets, ofNat_eq (x := x) (by omega), ofNat_eq (x := y) (by omega)]
  | case3 x => rw [sextets, octets, ofNat_eq (x := x) (by omega)]
  | case4 => rfl

theorem sextets_lt (h : n ∈ sextets xs) : n < 64 := by
  induction xs using sextets.induct with
  | case1 x y z rest ih =>
    have hx := x.toNat_lt
    have hy := y.toNat_lt
    have hz := z.toNat_lt
    simp only [sextets, List.mem_cons] at h
    rcases h with rfl | rfl | rfl | rfl | h
    · omega
    · omega
    · omega
    · omega
    · exact ih h
  | case2 x y =>
    have hx := x.toNat_lt
    have hy := y.toNat_lt
    simp only [sextets, List.mem_cons, List.not_mem_nil, or_false] at h
    omega
  | case3 x =>
    have hx := x.toNat_lt
    simp only [sextets, List.mem_cons, List.not_mem_nil, or_false] at h
    omega
  | case4 => cases h

theorem whole_sextets (xs : List UInt8) : Whole (sextets xs) := by
  induction xs using sextets.induct with
  | case1 x y z rest ih => exact ih
  | case2 x y => exact Nat.mul_mod_left _ _
  | case3 x => exact Nat.mul_mod_left _ _
  | case4 => trivial

theorem sextets_octets (hns : ∀ n ∈ ns, n < 64) (h : Whole ns) : sextets (octets ns) = ns := by
  induction ns using octets.induct with
  | case1 a b c d rest ih =>
    have ha := hns a (by simp)
    have hb := hns b (by simp)
    have hc := hns c (by simp)
    have hd := hns d (by simp)
    have hrest : ∀ n ∈ rest, n < 64 := fun n hn => hns n (by simp [hn])
    rw [octets, sextets, ih hrest h, UInt8.toNat_ofNat_of_lt' (by show _ < 256; omega),
      UInt8.toNat_ofNat_of_lt' (by show _ < 256; omega),
      UInt8.toNat_ofNat_of_lt' (by show _ < 256; omega)]
    simp only [List.cons.injEq, and_true]
    omega
  | case2 a b c =>
    have ha := hns a (by simp)
    have hb := hns b (by simp)
    have hc := hns c (by simp)
    have hzero : c % 4 = 0 := h
    rw [octets, sextets, UInt8.toNat_ofNat_of_lt' (by show _ < 256; omega),
      UInt8.toNat_ofNat_of_lt' (by show _ < 256; omega)]
    simp only [List.cons.injEq, and_true]
    omega
  | case3 a b =>
    have ha := hns a (by simp)
    have hb := hns b (by simp)
    have hzero : b % 16 = 0 := h
    rw [octets, sextets, UInt8.toNat_ofNat_of_lt' (by show _ < 256; omega)]
    simp only [List.cons.injEq, and_true]
    omega
  | case4 ns h4 h3 h2 =>
    -- one group is left over, or none
    match ns, h with
    | [], _ => rfl
    | [_], h => exact h.elim
    | [a, b], _ => exact absurd rfl (h2 a b)
    | [a, b, c], _ => exact absurd rfl (h3 a b c)
    | a :: b :: c :: d :: rest, _ => exact absurd rfl (h4 a b c d rest)

/-! ## Texts -/

/-- The digits, as code units. -/
def digit (n : ℕ) : UInt16 :=
  if n < 26 then UInt16.ofNat (n + 'A'.toNat)
  else if n < 52 then UInt16.ofNat (n - 26 + 'a'.toNat)
  else if n < 62 then UInt16.ofNat (n - 52 + '0'.toNat)
  else if n = 62 then UInt16.ofNat '-'.toNat
  else UInt16.ofNat '_'.toNat

/-- The low byte, which is all that the decoder sees of a code unit. -/
def lowByte (unit : UInt16) : Char := Char.ofNat (unit.toNat % 256)

/-- The value of a digit, of either alphabet. -/
def value (unit : UInt16) : Option ℕ :=
  let c := lowByte unit
  if c.isUpper then some (c.toNat - 'A'.toNat)
  else if c.isLower then some (c.toNat - 'a'.toNat + 26)
  else if c.isDigit then some (c.toNat - '0'.toNat + 52)
  else if c = '+' ∨ c = '-' then some 62
  else if c = '/' ∨ c = '_' then some 63
  else none

def encode (xs : List UInt8) : List UInt16 := (sextets xs).map digit

/-- The digits before the padding. -/
def values (text : List UInt16) : List ℕ :=
  (text.takeWhile fun unit => lowByte unit ≠ '=').filterMap value

def decode (text : List UInt16) : List UInt8 := octets (values text)

/-- Only digits of the alphabet, no more of them than the bytes need, and no unused bits. -/
def Canonical (text : List UInt16) : Prop :=
  ∃ ns, (∀ n ∈ ns, n < 64) ∧ Whole ns ∧ text = ns.map digit

theorem digit_spec : ∀ n < 64, value (digit n) = some n ∧ lowByte (digit n) ≠ '=' ∧
    lowByte (digit n) ≠ '.' := by
  decide

theorem values_digits (hns : ∀ n ∈ ns, n < 64) : values (ns.map digit) = ns := by
  have hpadding : ∀ unit ∈ ns.map digit, decide (lowByte unit ≠ '=') = true := by
    intro unit hunit
    obtain ⟨n, hn, rfl⟩ := List.mem_map.mp hunit
    exact decide_eq_true (digit_spec n (hns n hn)).2.1
  rw [values, List.takeWhile_eq_self_iff.mpr hpadding, List.filterMap_map]
  refine (List.filterMap_congr fun n hn => ?_).trans List.filterMap_some
  exact (digit_spec n (hns n hn)).1

theorem canonical_encode (xs : List UInt8) : Canonical (encode xs) :=
  ⟨sextets xs, fun _ => sextets_lt, whole_sextets xs, rfl⟩

/-- Bytes are read back. -/
theorem decode_encode (xs : List UInt8) : decode (encode xs) = xs := by
  rw [decode, encode, values_digits fun _ => sextets_lt, octets_sextets]

/-- A text is written again as it was iff the encoder writes it at all. -/
theorem encode_decode_iff {text : List UInt16} :
    encode (decode text) = text ↔ Canonical text := by
  constructor
  · intro h
    exact h ▸ canonical_encode _
  · rintro ⟨ns, hns, hwhole, rfl⟩
    rw [decode, values_digits hns, encode, sextets_octets hns hwhole]

/-- What follows the padding is not read. -/
theorem decode_encode_append (xs : List UInt8) {padding : UInt16} (hpadding : lowByte padding = '=')
    (rest : List UInt16) : decode (encode xs ++ padding :: rest) = xs := by
  have hdigits : ∀ unit ∈ encode xs, decide (lowByte unit ≠ '=') = true := by
    intro unit hunit
    obtain ⟨n, hn, rfl⟩ := List.mem_map.mp hunit
    exact decide_eq_true (digit_spec n (sextets_lt hn)).2.1
  have hvalues : values (encode xs ++ padding :: rest) = values (encode xs) := by
    rw [values, values, List.takeWhile_append_of_pos hdigits,
      List.takeWhile_cons_of_neg (by simp [hpadding]), List.append_nil,
      List.takeWhile_eq_self_iff.mpr hdigits]
  rw [decode, hvalues]
  exact decode_encode xs

theorem not_canonical_of_mem {text : List UInt16} {padding : UInt16} (hmem : padding ∈ text)
    (hpadding : lowByte padding = '=') : ¬Canonical text := by
  rintro ⟨ns, hns, -, rfl⟩
  obtain ⟨n, hn, rfl⟩ := List.mem_map.mp hmem
  exact (digit_spec n (hns n hn)).2.1 hpadding

/-- The encoder never writes a separator. -/
theorem dot_notMem_encode (xs : List UInt8) : 0x2E ∉ encode xs := by
  intro h
  obtain ⟨n, hn, hdigit⟩ := List.mem_map.mp h
  exact (digit_spec n (sextets_lt hn)).2.2 (hdigit ▸ rfl)

end Streams.Base64
