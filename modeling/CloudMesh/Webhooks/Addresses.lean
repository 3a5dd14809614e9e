import CloudMesh.Streams.Utf8
import CloudMesh.Webhooks.Ssrf
import Mathlib

/-!
# The addresses that a webhook may reach

`checkAddress` against the blocks of addresses it stands for. An IPv4 address in dotted decimal is
refused exactly if it lies in one of the eight blocks. An IPv6 address is refused by the beginning
of its text, which says enough about the address only because the text is the canonical one: that of
the URL parser, or that of the resolver.

## Main definitions

- `Block` — the addresses that begin with the same bits
- `dotted`, `Writer.text` — the texts of an address
- `Internal` — the IPv6 addresses that are refused
- `checkAddress_exact` — the check is exact for IPv4 and sound for IPv6
-/

namespace CloudMesh.Webhooks

open Streams

/-! ## Blocks of addresses -/

/-- `base/bits`. -/
structure Block (w : ℕ) where
  base : BitVec w
  bits : ℕ
  deriving DecidableEq

/-- The address begins with the bits of the base. -/
def Block.Contains {w : ℕ} (block : Block w) (address : BitVec w) : Prop :=
  address >>> (w - block.bits) = block.base >>> (w - block.bits)

instance {w : ℕ} (block : Block w) (address : BitVec w) : Decidable (block.Contains address) :=
  inferInstanceAs (Decidable (_ = _))

/-- The eight blocks, with their bases in hexadecimal. -/
def privateBlocks : List (Block 32) :=
  [⟨0x0a000000, 8⟩, ⟨0xac100000, 12⟩, ⟨0xc0a80000, 16⟩, ⟨0x7f000000, 8⟩, ⟨0xa9fe0000, 16⟩,
    ⟨0x00000000, 8⟩, ⟨0x64400000, 10⟩, ⟨0xe0000000, 4⟩]

/-- `fe80::/10`. -/
def linkLocal : Block 128 := ⟨0xfe80 <<< 112, 10⟩

/-- `fc00::/7`. -/
def uniqueLocal : Block 128 := ⟨0xfc00 <<< 112, 7⟩

/-- `::ffff:0:0/96`. -/
def ipv4Mapped : Block 128 := ⟨0xffff <<< 32, 96⟩

def Internal (address : BitVec 128) : Prop :=
  address = 0 ∨ address = 1 ∨ linkLocal.Contains address ∨ uniqueLocal.Contains address ∨
    ipv4Mapped.Contains address ∧ ∃ block ∈ privateBlocks, block.Contains (address.setWidth 32)

/-! ## Texts of addresses -/

def octets (address : BitVec 32) : List ℕ :=
  [24, 16, 8, 0].map fun k => (address.extractLsb' k 8).toNat

def dotted (address : BitVec 32) : String :=
  String.intercalate "." ((octets address).map toString)

/-- The groups of 16 bits. -/
def pieces (address : BitVec 128) : List ℕ :=
  [112, 96, 80, 64, 48, 32, 16, 0].map fun k => (address.extractLsb' k 16).toNat

/-- Groups in lower case, without leading zeros. -/
def colons (groups : List ℕ) : List Char := [':'].intercalate (groups.map (Nat.toDigits 16))

/-- How many groups from the one at `i` on are zero. -/
def zeroRun (groups : List ℕ) (i : ℕ) : ℕ := ((groups.drop i).takeWhile (· = 0)).length

def longestRun (groups : List ℕ) : ℕ :=
  ((List.range groups.length).map (zeroRun groups)).foldl max 0

/-- Where the first of the longest runs of zeros begins; one zero is no run. -/
def compressAt (groups : List ℕ) : Option ℕ :=
  if longestRun groups < 2 then none
  else (List.range groups.length).find? fun i => zeroRun groups i = longestRun groups

/-- The serializer of URLs, or `inet_ntop`, which writes an IPv4 address at the end in dotted
decimal. -/
inductive Writer
  | url
  | resolver
  deriving DecidableEq

/-- `inet_ntop` takes `::a.b.c.d` and `::ffff:a.b.c.d` for IPv4 addresses. -/
def endsInIPv4 (groups : List ℕ) (start : ℕ) : Bool :=
  start = 0 && (longestRun groups = 6 || (longestRun groups = 5 && groups.getD 5 0 = 0xffff))

/-- The text of the groups, the last two of which are `ipv4`. -/
def Writer.join (writer : Writer) (groups : List ℕ) (ipv4 : String) : List Char :=
  match compressAt groups with
  | none => colons groups
  | some i =>
    let rest := groups.drop (i + longestRun groups)
    if writer = .resolver ∧ endsInIPv4 groups i then
      "::".toList ++ (rest.dropLast.dropLast.flatMap fun group => Nat.toDigits 16 group ++ [':']) ++
        ipv4.toList
    else colons (groups.take i) ++ "::".toList ++ colons rest

def Writer.text (writer : Writer) (address : BitVec 128) : List Char :=
  writer.join (pieces address) (dotted (address.setWidth 32))

/-! ## Blocks and masks -/

section Masks

variable {w : ℕ}

/-- The mask compares all bits but the last `k`. -/
theorem and_mask_eq_iff (x y : BitVec w) (k : ℕ) :
    x &&& (BitVec.allOnes w <<< k) = y &&& (BitVec.allOnes w <<< k) ↔ x >>> k = y >>> k := by
  constructor
  · intro h
    ext i hi
    -- a bit of the shifted word lies `k` places higher in the masked one
    have hbit := congrArg (fun z => z.getLsbD (k + i)) h
    by_cases hk : k + i < w
    · have hle : ¬k + i < k := by omega
      simpa [BitVec.getLsbD_shiftLeft, hk, hle] using hbit
    · simp [BitVec.getElem_ushiftRight, BitVec.getLsbD_of_ge _ _ (not_lt.mp hk)]
  · intro h
    ext i hi
    by_cases hk : i < k
    · simp [BitVec.getElem_shiftLeft, hk]
    · have hbit := congrArg (fun z => z.getLsbD (i - k)) h
      have hindex : k + (i - k) = i := by omega
      simp only [BitVec.getLsbD_ushiftRight, hindex, BitVec.getLsbD_eq_getElem hi] at hbit
      simp only [BitVec.getElem_and, hbit]

theorem mask_eq (k : ℕ) : ((0xffffffff <<< k : ℕ) : BitVec 32) = BitVec.allOnes 32 <<< k := by
  apply BitVec.eq_of_toNat_eq
  rw [BitVec.toNat_shiftLeft, BitVec.toNat_allOnes]
  exact BitVec.toNat_ofNat _ _

theorem inCidr_iff (address : BitVec 32) (base : String) {bits : ℕ} (hbits : bits ≠ 0) :
    inCidr address base bits = true ↔ Block.Contains ⟨ipv4ToInt base.toList, bits⟩ address := by
  rw [inCidr, if_neg hbits, mask_eq, decide_eq_true_iff]
  exact and_mask_eq_iff _ _ _

/-- The table of the code is that of the blocks. -/
theorem blocked_eq : blocked.map (fun entry => Block.mk (ipv4ToInt entry.1.toList) entry.2) =
    privateBlocks := by
  decide

theorem bits_ne_zero {entry : String × ℕ} (h : entry ∈ blocked) : entry.2 ≠ 0 := by
  have hall : ∀ bits ∈ blocked.map Prod.snd, bits ≠ 0 := by decide
  exact hall _ (List.mem_map_of_mem h)

theorem isSafeIPv4_iff (text : List Char) : isSafeIPv4 text = true ↔
    ∀ block ∈ privateBlocks, ¬block.Contains (ipv4ToInt text) := by
  rw [isSafeIPv4, Bool.not_eq_true', List.any_eq_false, ← blocked_eq]
  constructor
  · intro h block hblock
    obtain ⟨entry, hentry, rfl⟩ := List.mem_map.mp hblock
    exact fun hin => h entry hentry ((inCidr_iff _ _ (bits_ne_zero hentry)).mpr hin)
  · intro h entry hentry hin
    exact h _ (List.mem_map_of_mem hentry) ((inCidr_iff _ _ (bits_ne_zero hentry)).mp hin)

end Masks

/-! ## Dotted decimal -/

section Dotted

variable {n : ℕ}

theorem decimal_toDigits (n : ℕ) : decimal (Nat.toDigits 10 n) = n :=
  Nat.ofDigitChars_ten_toDigits

theorem isDigit_of_mem_toDigits {c : Char} (h : c ∈ Nat.toDigits 10 n) : c.isDigit = true :=
  Nat.isDigit_of_mem_toDigits (by decide) (by decide) h

theorem dot_notMem_toDigits (n : ℕ) : '.' ∉ Nat.toDigits 10 n :=
  fun h => absurd (isDigit_of_mem_toDigits h) (by decide)

/-- Only zero begins with a zero. -/
theorem noLeadingZero : ∀ n : Fin 256,
    (Nat.toDigits 10 n).length = 1 ∨ (Nat.toDigits 10 n).head? ≠ some '0' := by
  decide +kernel

theorem isOctet_toDigits (h : n < 256) : isOctet (Nat.toDigits 10 n) = true := by
  have hne : Nat.toDigits 10 n ≠ [] := Nat.toDigits_ne_nil
  have hdigits : (Nat.toDigits 10 n).all Char.isDigit = true :=
    List.all_eq_true.mpr fun c hc => isDigit_of_mem_toDigits hc
  have hzero := noLeadingZero ⟨n, h⟩
  have hle : decimal (Nat.toDigits 10 n) ≤ 255 := by
    rw [decimal_toDigits]
    exact Nat.le_of_lt_succ h
  simp only [isOctet, hne, hdigits, hle, ne_eq, not_false_eq_true, decide_true, Bool.and_true,
    Bool.true_and, Bool.or_eq_true, decide_eq_true_eq]
  exact hzero

theorem toList_dotted (address : BitVec 32) :
    (dotted address).toList = ['.'].intercalate ((octets address).map (Nat.toDigits 10)) := by
  have hmap : ((octets address).map toString).map String.toList =
      (octets address).map (Nat.toDigits 10) := by
    rw [List.map_map]
    exact List.map_congr_left fun n _ => Nat.toList_repr
  rw [dotted, String.toList_intercalate, hmap]
  rfl

theorem split_dotted (address : BitVec 32) :
    split '.' (dotted address).toList = (octets address).map (Nat.toDigits 10) := by
  rw [toList_dotted]
  refine split_intercalate (List.cons_ne_nil _ _) fun piece hpiece => ?_
  obtain ⟨n, -, rfl⟩ := List.mem_map.mp hpiece
  exact dot_notMem_toDigits n

theorem octets_lt {address : BitVec 32} (h : n ∈ octets address) : n < 256 := by
  obtain ⟨k, -, rfl⟩ := List.mem_map.mp h
  exact (address.extractLsb' k 8).isLt

theorem isIPv4_dotted (address : BitVec 32) : isIPv4 (dotted address).toList = true := by
  have hall : ((octets address).map (Nat.toDigits 10)).all isOctet = true := by
    rw [List.all_map, List.all_eq_true]
    exact fun n hn => isOctet_toDigits (octets_lt hn)
  rw [isIPv4, split_dotted, hall, Bool.and_true]
  rfl

/-- The four octets are put together again. -/
theorem ipv4ToInt_dotted (address : BitVec 32) :
    ipv4ToInt (dotted address).toList = address := by
  have hparts : ((octets address).map (Nat.toDigits 10)).map
      (fun part => BitVec.ofNat 32 (decimal part)) =
        [24, 16, 8, 0].map fun k => (address.extractLsb' k 8).setWidth 32 := by
    rw [octets, List.map_map, List.map_map]
    refine List.map_congr_left fun k _ => ?_
    show BitVec.ofNat 32 (decimal (Nat.toDigits 10 _)) = _
    rw [decimal_toDigits, BitVec.ofNat_toNat]
  rw [ipv4ToInt, split_dotted, hparts]
  show (((address.extractLsb' 24 8).setWidth 32 <<< 24) |||
    ((address.extractLsb' 16 8).setWidth 32 <<< 16) |||
    ((address.extractLsb' 8 8).setWidth 32 <<< 8)) ||| (address.extractLsb' 0 8).setWidth 32 =
      address
  ext i hi
  simp only [BitVec.getElem_or, BitVec.getElem_shiftLeft, BitVec.getElem_setWidth,
    BitVec.getLsbD_extractLsb']
  grind

theorem isSafeIPv4_dotted (address : BitVec 32) : isSafeIPv4 (dotted address).toList = true ↔
    ∀ block ∈ privateBlocks, ¬block.Contains address := by
  rw [isSafeIPv4_iff, ipv4ToInt_dotted]

theorem checkAddress_dotted (address : BitVec 32) :
    checkAddress (dotted address) = isSafeIPv4 (dotted address).toList := by
  have hip : isIP (dotted address) = 4 := by
    unfold isIP
    rw [if_pos (isIPv4_dotted address)]
  unfold checkAddress
  simp only [hip]

end Dotted

/-! ## Hexadecimal -/

section Hexadecimal

variable {n : ℕ}

theorem digitChar_hex : ∀ d : Fin 16, hexDigit (Nat.digitChar d) = d ∧
    isHexDigit (Nat.digitChar d) = true ∧ Nat.digitChar d ≠ '.' ∧ Nat.digitChar d ≠ ':' := by
  decide

theorem toDigits_hex (n : ℕ) : hexadecimal (Nat.toDigits 16 n) = n ∧
    ∀ c ∈ Nat.toDigits 16 n, isHexDigit c = true ∧ c ≠ '.' ∧ c ≠ ':' := by
  induction n using Nat.strong_induction_on with
  | _ n ih =>
    obtain ⟨hdigit, hchar⟩ := digitChar_hex ⟨n % 16, Nat.mod_lt _ (by decide)⟩
    rw [Nat.toDigits_eq_if (by decide)]
    split
    · next hlt =>
      have hmod : n % 16 = n := Nat.mod_eq_of_lt hlt
      simp only [hmod] at hdigit hchar
      refine ⟨by simp [hexadecimal, hdigit], fun c hc => ?_⟩
      rw [List.mem_singleton.mp hc]
      exact hchar
    · next hge =>
      obtain ⟨hvalue, hchars⟩ := ih (n / 16) (by omega)
      refine ⟨?_, fun c hc => ?_⟩
      · rw [hexadecimal, List.foldl_append]
        show 16 * hexadecimal (Nat.toDigits 16 (n / 16)) + hexDigit _ = n
        rw [hvalue, hdigit]
        exact Nat.div_add_mod n 16
      · rcases List.mem_append.mp hc with hc | hc
        · exact hchars c hc
        · rw [List.mem_singleton.mp hc]
          exact hchar

theorem hexadecimal_toDigits (n : ℕ) : hexadecimal (Nat.toDigits 16 n) = n :=
  (toDigits_hex n).1

theorem colon_notMem_hex (n : ℕ) : ':' ∉ Nat.toDigits 16 n :=
  fun h => ((toDigits_hex n).2 _ h).2.2 rfl

theorem dot_notMem_hex (n : ℕ) : '.' ∉ Nat.toDigits 16 n :=
  fun h => ((toDigits_hex n).2 _ h).2.1 rfl

theorem isHexGroup_toDigits (h : n < 65536) : isHexGroup (Nat.toDigits 16 n) = true := by
  have hne : Nat.toDigits 16 n ≠ [] := Nat.toDigits_ne_nil
  have hlength : (Nat.toDigits 16 n).length ≤ 4 :=
    (Nat.length_toDigits_le_iff (by decide) (by decide)).mpr h
  have hall : (Nat.toDigits 16 n).all isHexDigit = true :=
    List.all_eq_true.mpr fun c hc => ((toDigits_hex n).2 c hc).1
  simp [isHexGroup, hne, hlength, hall]

end Hexadecimal

/-! ## IPv4-mapped addresses -/

section Mapped

variable {address : BitVec 128} {rest : List Char} {high low : ℕ}

/-- A text that goes on after `::ffff:`. -/
theorem unwrap_append (rest : List Char) : unwrapIPv4Mapped ("::ffff:".toList ++ rest) =
    if (split '.' rest).length = 4 ∧
        (split '.' rest).all fun part => part ≠ [] && part.all Char.isDigit then some rest
    else
      match split ':' rest with
      | [high, low] =>
        if isHexGroup high ∧ isHexGroup low then
          some (String.intercalate "." ([hexadecimal high / 256 % 256, hexadecimal high % 256,
            hexadecimal low / 256 % 256, hexadecimal low % 256].map toString)).toList
        else none
      | _ => none := by
  have hbegins : "::ffff:".toList.isPrefixOf ("::ffff:".toList ++ rest) = true :=
    List.isPrefixOf_iff_prefix.mpr (List.prefix_append _ _)
  have hdrop : ("::ffff:".toList ++ rest).drop "::ffff:".length = rest := List.drop_left
  unfold unwrapIPv4Mapped
  rewrite [if_pos hbegins, hdrop]
  rfl

theorem unwrap_dotted (address : BitVec 32) :
    unwrapIPv4Mapped ("::ffff:".toList ++ (dotted address).toList) =
      some (dotted address).toList := by
  have hall : ((octets address).map (Nat.toDigits 10)).all
      (fun part => part ≠ [] && part.all Char.isDigit) = true := by
    rw [List.all_map, List.all_eq_true]
    intro n _
    have hne : Nat.toDigits 10 n ≠ [] := Nat.toDigits_ne_nil
    have hdigits : (Nat.toDigits 10 n).all Char.isDigit = true :=
      List.all_eq_true.mpr fun c hc => isDigit_of_mem_toDigits hc
    simp [hne, hdigits]
  rw [unwrap_append, split_dotted, if_pos ⟨rfl, hall⟩]

theorem unwrap_hex (hhigh : high < 65536) (hlow : low < 65536) :
    unwrapIPv4Mapped ("::ffff:".toList ++ colons [high, low]) =
      some (String.intercalate "." ([high / 256 % 256, high % 256, low / 256 % 256,
        low % 256].map toString)).toList := by
  have hcolons : split ':' (colons [high, low]) = [Nat.toDigits 16 high, Nat.toDigits 16 low] := by
    refine split_intercalate (List.cons_ne_nil _ _) fun piece hpiece => ?_
    obtain ⟨n, -, rfl⟩ := List.mem_map.mp hpiece
    exact colon_notMem_hex n
  -- without a dot the text is not taken for one in dotted decimal
  have hdots : split '.' (colons [high, low]) = [colons [high, low]] := by
    refine split_of_notMem fun h => ?_
    rw [colons, List.map_cons, List.map_cons, List.map_nil, List.intercalate_cons_cons,
      List.intercalate_singleton] at h
    rcases List.mem_append.mp h with h | h
    · rcases List.mem_append.mp h with h | h
      · exact dot_notMem_hex high h
      · exact absurd h (by decide)
    · exact dot_notMem_hex low h
  rw [unwrap_append, hdots, if_neg (by simp), hcolons]
  simp only [isHexGroup_toDigits hhigh, isHexGroup_toDigits hlow, hexadecimal_toDigits, and_self,
    if_true]

/-- The groups as numbers. -/
theorem pieces_eq (address : BitVec 128) : pieces address =
    [112, 96, 80, 64, 48, 32, 16, 0].map fun k => address.toNat / 2 ^ k % 65536 := by
  refine List.map_congr_left fun k _ => ?_
  rw [BitVec.extractLsb'_toNat, Nat.shiftRight_eq_div_pow]

theorem octets_eq (address : BitVec 32) : octets address =
    [24, 16, 8, 0].map fun k => address.toNat / 2 ^ k % 256 := by
  refine List.map_congr_left fun k _ => ?_
  rw [BitVec.extractLsb'_toNat, Nat.shiftRight_eq_div_pow]

theorem contains_iff {w : ℕ} {block : Block w} {address : BitVec w} : block.Contains address ↔
    address.toNat / 2 ^ (w - block.bits) = block.base.toNat / 2 ^ (w - block.bits) := by
  rw [Block.Contains, ← BitVec.toNat_inj, BitVec.toNat_ushiftRight, BitVec.toNat_ushiftRight,
    Nat.shiftRight_eq_div_pow, Nat.shiftRight_eq_div_pow]

theorem toNat_of_mapped (h : ipv4Mapped.Contains address) : address.toNat / 2 ^ 32 = 65535 :=
  (contains_iff.mp h).trans (by decide)

theorem pieces_of_mapped (h : ipv4Mapped.Contains address) : pieces address =
    [0, 0, 0, 0, 0, 65535, address.toNat / 2 ^ 16 % 65536, address.toNat % 65536] := by
  have hnat := toNat_of_mapped h
  rw [pieces_eq]
  simp only [List.map_cons, List.map_nil, List.cons.injEq, and_true, Nat.pow_zero,
    Nat.div_one]
  omega

/-- The last two groups as octets. -/
theorem octets_of_groups (address : BitVec 128) :
    octets (address.setWidth 32) =
      [address.toNat / 2 ^ 16 % 65536 / 256 % 256, address.toNat / 2 ^ 16 % 65536 % 256,
        address.toNat % 65536 / 256 % 256, address.toNat % 65536 % 256] := by
  rw [octets_eq, BitVec.toNat_setWidth]
  simp only [List.map_cons, List.map_nil, List.cons.injEq, and_true]
  omega

/-- The run before `ffff` is longer than any after it. -/
theorem runs_of_mapped (high low : ℕ) :
    longestRun [0, 0, 0, 0, 0, 65535, high, low] = 5 ∧
      compressAt [0, 0, 0, 0, 0, 65535, high, low] = some 0 := by
  have hlongest : longestRun [0, 0, 0, 0, 0, 65535, high, low] = 5 := by
    by_cases hhigh : high = 0 <;> by_cases hlow : low = 0 <;>
      simp [longestRun, zeroRun, List.range_succ, hhigh, hlow]
  refine ⟨hlongest, ?_⟩
  rw [compressAt, hlongest]
  simp [zeroRun, List.range_succ]

theorem endsInIPv4_of_mapped (high low : ℕ) :
    endsInIPv4 [0, 0, 0, 0, 0, 65535, high, low] 0 = true := by
  rw [endsInIPv4, (runs_of_mapped high low).1]
  rfl

theorem hex_ffff : Nat.toDigits 16 65535 = "ffff".toList := by decide

theorem text_of_mapped (high low : ℕ) :
    colons ([0, 0, 0, 0, 0, 65535, high, low].take 0) ++ "::".toList ++
      colons ([0, 0, 0, 0, 0, 65535, high, low].drop (0 + 5)) =
        "::ffff:".toList ++ colons [high, low] := by
  show [] ++ "::".toList ++ [':'].intercalate [Nat.toDigits 16 65535, Nat.toDigits 16 high,
    Nat.toDigits 16 low] = _
  rw [hex_ffff, List.intercalate_cons_cons]
  rfl

theorem resolver_text_of_mapped (high low : ℕ) (rest : List Char) :
    "::".toList ++ (([0, 0, 0, 0, 0, 65535, high, low].drop (0 + 5)).dropLast.dropLast.flatMap
      fun group => Nat.toDigits 16 group ++ [':']) ++ rest = "::ffff:".toList ++ rest := by
  show "::".toList ++ (Nat.toDigits 16 65535 ++ [':'] ++ []) ++ rest = _
  rw [hex_ffff]
  rfl

/-- In both spellings the IPv4 address is unwrapped. -/
theorem unwrap_of_mapped (h : ipv4Mapped.Contains address) (writer : Writer) :
    unwrapIPv4Mapped (writer.text address) = some (dotted (address.setWidth 32)).toList := by
  obtain ⟨hlongest, hcompress⟩ :=
    runs_of_mapped (address.toNat / 2 ^ 16 % 65536) (address.toNat % 65536)
  rw [Writer.text, pieces_of_mapped h, Writer.join, hcompress]
  simp only [hlongest]
  cases writer with
  | url =>
    rw [if_neg (by simp), text_of_mapped,
      unwrap_hex (Nat.mod_lt _ (by decide)) (Nat.mod_lt _ (by decide)), dotted, octets_of_groups]
  | resolver =>
    rw [if_pos ⟨rfl, endsInIPv4_of_mapped _ _⟩, resolver_text_of_mapped, unwrap_dotted]

theorem isSafeIPv6_of_mapped {text : List Char} (h : ipv4Mapped.Contains address)
    (writer : Writer) (htext : text.map Char.toLower = writer.text address) :
    isSafeIPv6 text = isSafeIPv4 (dotted (address.setWidth 32)).toList := by
  simp only [isSafeIPv6, htext, unwrap_of_mapped h writer]

end Mapped

/-! ## The beginning of a text -/

section Prefixes

variable {address : BitVec 128} {writer : Writer} {text : List Char}

/-- The beginnings that are refused. -/
def refused : List String := ["fe8", "fe9", "fea", "feb", "fc", "fd"]

theorem isSafeIPv6_of_prefix {pre : String} (hpre : pre ∈ refused)
    (h : pre.toList <+: text.map Char.toLower) : isSafeIPv6 text = false := by
  obtain ⟨rest, hrest⟩ := h
  have hmapped : unwrapIPv4Mapped (text.map Char.toLower) = none := by
    have hstart : "::ffff:".toList.isPrefixOf (text.map Char.toLower) = false := by
      rw [← hrest]
      simp only [refused, List.mem_cons, List.not_mem_nil, or_false] at hpre
      rcases hpre with rfl | rfl | rfl | rfl | rfl | rfl <;> rfl
    simp only [unwrapIPv4Mapped, hstart, Bool.false_eq_true, if_false]
  have hany : (refused.any fun pre => pre.toList.isPrefixOf (text.map Char.toLower)) = true :=
    List.any_eq_true.mpr ⟨pre, hpre, List.isPrefixOf_iff_prefix.mpr ⟨rest, hrest⟩⟩
  simp only [isSafeIPv6, hmapped]
  exact congrArg Bool.not (Bool.or_eq_true_iff.mpr (Or.inr hany))

/-- A first group that is not zero is written out. -/
theorem prefix_text {first : ℕ} {groups : List ℕ} (hpieces : pieces address = first :: groups)
    (hfirst : first ≠ 0) : Nat.toDigits 16 first <+: writer.text address := by
  have hcolons : ∀ rest, Nat.toDigits 16 first <+: colons (first :: rest) := by
    intro rest
    cases rest with
    | nil =>
      rw [colons, List.map_cons, List.map_nil, List.intercalate_singleton]
    | cons next rest =>
      rw [colons, List.map_cons, List.map_cons, List.intercalate_cons_cons, List.append_assoc]
      exact List.prefix_append _ _
  rw [Writer.text, hpieces, Writer.join]
  cases hcompress : compressAt (first :: groups) with
  | none => exact hcolons groups
  | some i =>
    -- the zeros that are left out do not begin with this group
    have hi : i ≠ 0 := by
      rintro rfl
      rw [compressAt] at hcompress
      split at hcompress
      · cases hcompress
      · next hlong =>
        have hrun := List.find?_some hcompress
        rw [decide_eq_true_iff] at hrun
        have hzero : zeroRun (first :: groups) 0 = 0 := by simp [zeroRun, hfirst]
        omega
    obtain ⟨j, rfl⟩ := Nat.exists_eq_succ_of_ne_zero hi
    have hends : endsInIPv4 (first :: groups) (j + 1) = false := by simp [endsInIPv4]
    simp only [hends, Bool.false_eq_true, and_false, if_false, List.take_succ_cons,
      List.append_assoc]
    exact (hcolons _).trans (List.prefix_append _ _)

theorem toDigits_div_leading {n : ℕ} (h : 16 ≤ n) :
    Nat.toDigits 16 (n / 16) <+: Nat.toDigits 16 n := by
  rw [Nat.toDigits_of_base_le (by decide) h]
  exact List.prefix_append _ _

/-- The beginnings as numbers. -/
theorem refused_toDigits : ∀ n ∈ [0xfe8, 0xfe9, 0xfea, 0xfeb, 0xfc, 0xfd], ∃ pre ∈ refused,
    pre.toList = Nat.toDigits 16 n := by
  decide

theorem pieces_cons (address : BitVec 128) :
    ∃ groups, pieces address = address.toNat / 2 ^ 112 :: groups := by
  have hbound := address.isLt
  have hfirst : address.toNat / 2 ^ 112 % 65536 = address.toNat / 2 ^ 112 :=
    Nat.mod_eq_of_lt (by omega)
  rw [pieces_eq, List.map_cons, hfirst]
  exact ⟨_, rfl⟩

/-- Addresses with a first group that is refused. -/
theorem isSafeIPv6_of_first {n : ℕ} (hn : n ∈ [0xfe8, 0xfe9, 0xfea, 0xfeb, 0xfc, 0xfd])
    (hbegins : Nat.toDigits 16 n <+: Nat.toDigits 16 (address.toNat / 2 ^ 112))
    (hzero : address.toNat / 2 ^ 112 ≠ 0)
    (htext : text.map Char.toLower = writer.text address) : isSafeIPv6 text = false := by
  obtain ⟨pre, hpre, hdigits⟩ := refused_toDigits n hn
  obtain ⟨groups, hpieces⟩ := pieces_cons address
  exact isSafeIPv6_of_prefix hpre
    (htext ▸ hdigits ▸ hbegins.trans (prefix_text hpieces hzero))

theorem isSafeIPv6_of_linkLocal (h : linkLocal.Contains address)
    (htext : text.map Char.toLower = writer.text address) : isSafeIPv6 text = false := by
  have hnat : address.toNat / 2 ^ 118 = 0xfe80 / 64 :=
    (contains_iff.mp h).trans (by decide)
  refine isSafeIPv6_of_first ?_ (toDigits_div_leading (by omega)) (by omega) htext
  simp only [List.mem_cons, List.not_mem_nil, or_false]
  omega

theorem isSafeIPv6_of_uniqueLocal (h : uniqueLocal.Contains address)
    (htext : text.map Char.toLower = writer.text address) : isSafeIPv6 text = false := by
  have hnat : address.toNat / 2 ^ 121 = 0xfc00 / 512 :=
    (contains_iff.mp h).trans (by decide)
  refine isSafeIPv6_of_first ?_
    ((toDigits_div_leading (by omega)).trans (toDigits_div_leading (by omega))) (by omega) htext
  simp only [List.mem_cons, List.not_mem_nil, or_false]
  omega

end Prefixes

/-! ## All addresses -/

section All

variable {address : BitVec 128}

theorem text_zero (writer : Writer) : writer.text 0 = "::".toList := by
  cases writer <;> decide

theorem text_one (writer : Writer) : writer.text 1 = "::1".toList := by
  cases writer <;> decide

theorem colon_mem_colons {first next : ℕ} {groups : List ℕ} :
    ':' ∈ colons (first :: next :: groups) := by
  rw [colons, List.map_cons, List.map_cons, List.intercalate_cons_cons]
  simp

/-- No text of an IPv6 address is one of an IPv4 address. -/
theorem colon_mem_text (writer : Writer) (address : BitVec 128) : ':' ∈ writer.text address := by
  rw [Writer.text, Writer.join]
  cases hcompress : compressAt (pieces address) with
  | none => exact colon_mem_colons
  | some i =>
    have hdouble : ':' ∈ "::".toList := List.mem_cons_self
    dsimp only
    split
    · exact List.mem_append_left _ (List.mem_append_left _ hdouble)
    · exact List.mem_append_left _ (List.mem_append_right _ hdouble)

theorem toLower_of_isDigit {c : Char} (h : c.isDigit = true) : c.toLower = c := by
  simp only [Char.isDigit, Bool.and_eq_true, decide_eq_true_eq] at h
  have hupper : ¬(c.val ≥ 'A'.val ∧ c.val ≤ 'Z'.val) :=
    fun hbetween => absurd (UInt32.le_trans hbetween.1 h.2) (by decide)
  exact dif_neg hupper

theorem isIPv4_of_colon {text : List Char} (h : ':' ∈ text.map Char.toLower) :
    isIPv4 text = false := by
  obtain ⟨c, hc, hlower⟩ := List.mem_map.mp h
  have hdot : c ≠ '.' := by
    rintro rfl
    exact absurd hlower (by decide)
  obtain ⟨piece, hpiece, hmem⟩ := exists_mem_split hc hdot
  -- the colon is in some piece between dots, which is then no octet
  have hoctet : isOctet piece = false := by
    have hdigits : piece.all Char.isDigit = false := by
      rw [List.all_eq_false]
      refine ⟨c, hmem, fun hdigit => ?_⟩
      rw [toLower_of_isDigit hdigit] at hlower
      subst hlower
      exact absurd hdigit (by decide)
    simp [isOctet, hdigits]
  have hall : (split '.' text).all isOctet = false :=
    List.all_eq_false.mpr ⟨piece, hpiece, by simp [hoctet]⟩
  rw [isIPv4, hall, Bool.and_false]

/-- Both texts of an address that is refused are refused, in any letters. -/
theorem checkAddress_internal (h : Internal address) (writer : Writer) (s : String)
    (htext : s.toList.map Char.toLower = writer.text address) : checkAddress s = false := by
  have hv4 : isIPv4 s.toList = false := isIPv4_of_colon (htext ▸ colon_mem_text writer address)
  have hv6 : isSafeIPv6 s.toList = false := by
    rcases h with rfl | rfl | hlocal | hunique | ⟨hmapped, block, hblock, hin⟩
    · rw [text_zero] at htext
      simp only [isSafeIPv6, htext]
      decide
    · rw [text_one] at htext
      simp only [isSafeIPv6, htext]
      decide
    · exact isSafeIPv6_of_linkLocal hlocal htext
    · exact isSafeIPv6_of_uniqueLocal hunique htext
    · rw [isSafeIPv6_of_mapped hmapped writer htext, ← Bool.not_eq_true, isSafeIPv4_dotted]
      exact fun hsafe => hsafe block hblock hin
  unfold checkAddress isIP
  rw [hv4, hv6]
  cases isIPv6 s.toList with
  | true => rfl
  | false => rfl

end All

/-- An IPv4 address is accepted iff it lies in none of the eight blocks, and an IPv6 address that is
internal is refused in every canonical text. -/
theorem checkAddress_exact :
    (∀ address, checkAddress (dotted address) = true ↔
      ∀ block ∈ privateBlocks, ¬block.Contains address) ∧
    ∀ address, Internal address → ∀ (writer : Writer) (s : String),
      s.toList.map Char.toLower = writer.text address → checkAddress s = false := by
  refine ⟨fun address => ?_, fun address h writer s htext => ?_⟩
  · rw [checkAddress_dotted]
    exact isSafeIPv4_dotted address
  · exact checkAddress_internal h writer s htext

/-- The metadata endpoint as the URL parser writes it, in upper case. -/
theorem checkAddress_exact_metadata : checkAddress "::FFFF:A9FE:A9FE" = false := by
  refine checkAddress_exact.2 0xffffa9fea9fe ?_ .url "::FFFF:A9FE:A9FE" (by decide)
  exact .inr (.inr (.inr (.inr
    ⟨by decide, ⟨0xa9fe0000, 16⟩, by decide, by decide⟩)))

end CloudMesh.Webhooks
