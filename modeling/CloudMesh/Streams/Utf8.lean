import CloudMesh.Streams.Frames
import CloudMesh.Streams.Lines
import Mathlib.Tactic.SplitIfs

/-!
# UTF-8 in pieces

The decoder of a stream reads one byte at a time: between two bytes it knows the bits it has, how
many bytes are still to come and the range of the next one. What is not UTF-8 becomes a
replacement character. However the encoding of a text is cut into reads, the text comes back. The
line feed is a byte of its own, so the encoded lines of a text are the lines of its encoding.

## Main definitions

- `encode` — the bytes of a text
- `step` — the decoder
- `TextDecoder.step` — the decoder that drops a byte order mark at the beginning
- `drain_encode` — lines of bytes and lines of text
-/

namespace Streams

namespace Utf8

def encode (text : List Char) : List UInt8 := text.flatMap String.utf8EncodeChar

@[simp] theorem encode_nil : encode [] = [] := rfl

theorem encode_cons (c : Char) (text : List Char) :
    encode (c :: text) = String.utf8EncodeChar c ++ encode text := rfl

theorem encode_append (xs ys : List Char) : encode (xs ++ ys) = encode xs ++ encode ys :=
  List.flatMap_append

/-! ## The decoder -/

structure State where
  codePoint : ℕ
  needed : ℕ
  lower : ℕ
  upper : ℕ
  deriving DecidableEq, Repr

/-- Between two characters. -/
def start : State := ⟨0, 0, 0x80, 0xBF⟩

def replacement : Char := '\uFFFD'

/-- The first byte of a character. -/
def first (b : ℕ) : List Char × State :=
  if b ≤ 0x7F then ([Char.ofNat b], start)
  else if 0xC2 ≤ b ∧ b ≤ 0xDF then ([], ⟨b % 32, 1, 0x80, 0xBF⟩)
  else if 0xE0 ≤ b ∧ b ≤ 0xEF then
    ([], ⟨b % 16, 2, if b = 0xE0 then 0xA0 else 0x80, if b = 0xED then 0x9F else 0xBF⟩)
  else if 0xF0 ≤ b ∧ b ≤ 0xF4 then
    ([], ⟨b % 8, 3, if b = 0xF0 then 0x90 else 0x80, if b = 0xF4 then 0x8F else 0xBF⟩)
  else ([replacement], start)

/-- A byte out of its range ends the character, and is read again as a first byte. -/
def step (state : State) (byte : UInt8) : List Char × State :=
  let b := byte.toNat
  if state.needed = 0 then first b
  else if b < state.lower ∨ state.upper < b then
    let (out, state) := first b
    (replacement :: out, state)
  else if state.needed = 1 then ([Char.ofNat (state.codePoint * 64 + b % 64)], start)
  else ([], ⟨state.codePoint * 64 + b % 64, state.needed - 1, 0x80, 0xBF⟩)

theorem step_first {b : ℕ} (hb : b < 256) : step start (UInt8.ofNat b) = first b := by
  simp only [step, start, if_pos, UInt8.toNat_ofNat_of_lt' hb]

/-- A byte after the first one, with six more bits. -/
theorem step_tail {state : State} {bits : ℕ} (hneeded : state.needed ≠ 0) (hbits : bits < 64)
    (hlower : state.lower ≤ bits + 0x80) (hupper : bits + 0x80 ≤ state.upper) :
    step state (UInt8.ofNat (bits + 0x80)) =
      if state.needed = 1 then ([Char.ofNat (state.codePoint * 64 + bits)], start)
      else ([], ⟨state.codePoint * 64 + bits, state.needed - 1, 0x80, 0xBF⟩) := by
  have hrange : ¬(bits + 0x80 < state.lower ∨ state.upper < bits + 0x80) := by omega
  have hmod : (bits + 0x80) % 64 = bits := by omega
  have hb : (UInt8.ofNat (bits + 0x80)).toNat = bits + 0x80 :=
    UInt8.toNat_ofNat_of_lt' (show bits + 0x80 < 256 by omega)
  simp only [step, hb, if_neg hneeded, if_neg hrange, hmod]

theorem first_two : ∀ n < 32, 2 ≤ n → first (n + 0xC0) = ([], ⟨n, 1, 0x80, 0xBF⟩) := by
  decide

theorem first_three : ∀ n < 16, first (n + 0xE0) =
    ([], ⟨n, 2, if n = 0 then 0xA0 else 0x80, if n = 13 then 0x9F else 0xBF⟩) := by
  decide

theorem first_four : ∀ n < 5, first (n + 0xF0) =
    ([], ⟨n, 3, if n = 0 then 0x90 else 0x80, if n = 4 then 0x8F else 0xBF⟩) := by
  decide

/-- A character of the encoding is read back. -/
theorem scan_step_utf8EncodeChar (c : Char) :
    scan step start (String.utf8EncodeChar c) = ([c], start) := by
  have hvalid : c.val.toNat < 0xD800 ∨ 0xDFFF < c.val.toNat ∧ c.val.toNat < 0x110000 := c.valid
  have hc : Char.ofNat c.val.toNat = c := Char.ofNat_toNat c
  generalize hv : c.val.toNat = v at hvalid hc
  unfold String.utf8EncodeChar
  simp only [hv]
  split_ifs with hone htwo hthree
  · rw [scan, step_first (by omega), first, if_pos hone, hc]
    rfl
  · have hsum : v / 64 % 32 * 64 + v % 64 = v := by omega
    simp only [scan]
    rw [step_first (by omega), first_two _ (by omega) (by omega)]
    dsimp only
    rw [step_tail (by simp) (by omega) (by dsimp only; omega) (by dsimp only; omega), if_pos rfl]
    simp only [hsum, hc, List.append_nil, List.nil_append]
  · -- the range of the second byte depends on the first: no surrogates, no overlong forms
    have hsum : (v / 4096 % 16 * 64 + v / 64 % 64) * 64 + v % 64 = v := by omega
    simp only [scan]
    rw [step_first (by omega), first_three _ (by omega)]
    dsimp only
    rw [step_tail (by simp) (by omega) (by dsimp only; split_ifs <;> omega)
      (by dsimp only; split_ifs <;> omega), if_neg (by simp)]
    dsimp only
    rw [step_tail (by simp) (by omega) (by dsimp only; omega) (by dsimp only; omega), if_pos rfl]
    simp only [hsum, hc, List.append_nil, List.nil_append]
  · have hsum : ((v / 262144 % 8 * 64 + v / 4096 % 64) * 64 + v / 64 % 64) * 64 + v % 64 = v := by
      omega
    simp only [scan]
    rw [step_first (by omega), first_four _ (by omega)]
    dsimp only
    rw [step_tail (by simp) (by omega) (by dsimp only; split_ifs <;> omega)
      (by dsimp only; split_ifs <;> omega), if_neg (by simp)]
    dsimp only
    rw [step_tail (by simp) (by omega) (by dsimp only; omega) (by dsimp only; omega),
      if_neg (by simp)]
    dsimp only
    rw [step_tail (by simp) (by omega) (by dsimp only; omega) (by dsimp only; omega), if_pos rfl]
    simp only [hsum, hc, List.append_nil, List.nil_append]

/-- A text comes back from its encoding. -/
theorem scan_step_encode (text : List Char) : scan step start (encode text) = (text, start) := by
  induction text with
  | nil => rfl
  | cons c text ih =>
    rw [encode_cons, scan_append, scan_step_utf8EncodeChar, ih]
    rfl

/-- Bytes at the beginning are text at the beginning. -/
theorem exists_append_of_encode {xs ys : List Char} {rest : List UInt8}
    (h : encode ys = encode xs ++ rest) : ∃ zs, ys = xs ++ zs := by
  have hscan := congrArg (fun bytes => (scan step start bytes).1) h
  simp only [scan_append, scan_step_encode] at hscan
  exact ⟨_, hscan⟩

theorem encode_injective : Function.Injective encode := by
  intro xs ys h
  have hscan := congrArg (fun bytes => (scan step start bytes).1) h
  simpa only [scan_step_encode] using hscan

/-! ## `TextDecoder` -/

structure TextDecoder where
  utf8 : State
  bomSeen : Bool
  deriving DecidableEq, Repr

namespace TextDecoder

def new : TextDecoder := ⟨start, false⟩

def byteOrderMark : Char := '\uFEFF'

def step (decoder : TextDecoder) (byte : UInt8) : List Char × TextDecoder :=
  let (out, utf8) := Utf8.step decoder.utf8 byte
  if decoder.bomSeen then (out, ⟨utf8, true⟩)
  else
    match out with
    | [] => ([], ⟨utf8, false⟩)
    | c :: out => (if c = byteOrderMark then out else c :: out, ⟨utf8, true⟩)

theorem scan_step_of_bomSeen (utf8 : State) (bytes : List UInt8) :
    (scan step ⟨utf8, true⟩ bytes).1 = (scan Utf8.step utf8 bytes).1 := by
  induction bytes generalizing utf8 with
  | nil => rfl
  | cons byte bytes ih =>
    simp only [scan, step, if_true]
    rw [ih]

/-- The first character of a stream, unless it is the mark, is handed out like the others. -/
theorem scan_step_of_ne {c : Char} {text : List Char} {utf8 : State} {bytes : List UInt8}
    (hscan : (scan Utf8.step utf8 bytes).1 = c :: text) (hc : c ≠ byteOrderMark) :
    (scan step ⟨utf8, false⟩ bytes).1 = c :: text := by
  induction bytes generalizing utf8 with
  | nil => cases hscan
  | cons byte bytes ih =>
    simp only [scan] at hscan ⊢
    cases hout : (Utf8.step utf8 byte).1 with
    | nil =>
      rw [hout, List.nil_append] at hscan
      simp only [step, hout, Bool.false_eq_true, if_false, List.nil_append]
      exact ih hscan
    | cons d out =>
      obtain ⟨rfl, htext⟩ := List.cons.inj (hout ▸ hscan)
      simp only [step, hout, Bool.false_eq_true, if_false, if_neg hc]
      rw [scan_step_of_bomSeen]
      exact congrArg (d :: ·) htext

theorem scan_step_encode {c : Char} (hc : c ≠ byteOrderMark) (text : List Char) :
    (scan step new (encode (c :: text))).1 = c :: text :=
  scan_step_of_ne (congrArg Prod.fst (Utf8.scan_step_encode (c :: text))) hc

end TextDecoder

/-! ## Lines -/

/-- The byte of the line feed. -/
def lineFeed : UInt8 := 0x0A

theorem lineFeed_notMem_utf8EncodeChar {c : Char} (hc : c ≠ '\n') :
    lineFeed ∉ String.utf8EncodeChar c := by
  have hne : c.val.toNat ≠ 10 := by
    intro h
    exact hc (Char.ext (UInt32.toNat_inj.mp h))
  have hbyte : ∀ n < 256, n ≠ 10 → lineFeed ≠ UInt8.ofNat n := by
    intro n hn hten h
    have hnat : 10 = (UInt8.ofNat n).toNat := congrArg UInt8.toNat h
    rw [UInt8.toNat_ofNat_of_lt' hn] at hnat
    exact hten hnat.symm
  unfold String.utf8EncodeChar
  dsimp only
  split_ifs with hone htwo hthree
  all_goals simp only [List.mem_cons, List.not_mem_nil, or_false, not_or]
  · exact hbyte _ (by omega) hne
  · exact ⟨hbyte _ (by omega) (by omega), hbyte _ (by omega) (by omega)⟩
  · exact ⟨hbyte _ (by omega) (by omega), hbyte _ (by omega) (by omega),
      hbyte _ (by omega) (by omega)⟩
  · exact ⟨hbyte _ (by omega) (by omega), hbyte _ (by omega) (by omega),
      hbyte _ (by omega) (by omega), hbyte _ (by omega) (by omega)⟩

end Utf8

/-- Items without the separator belong to the first line. -/
theorem drain_append_of_notMem {α : Type} [DecidableEq α] {sep : α} {xs : List α} (hxs : sep ∉ xs)
    (ys : List α) : drain sep (xs ++ ys) =
      match (drain sep ys).1 with
      | [] => ([], xs ++ (drain sep ys).2)
      | line :: lines => ((xs ++ line) :: lines, (drain sep ys).2) := by
  induction xs with
  | nil =>
    rw [List.nil_append]
    cases hlines : drain sep ys with
    | mk lines rest => cases lines <;> rfl
  | cons x xs ih =>
    have hx : x ≠ sep := fun h => hxs (h ▸ List.mem_cons_self)
    rw [List.cons_append, drain_cons_of_ne hx, ih fun h => hxs (List.mem_cons_of_mem _ h)]
    cases (drain sep ys).1 <;> rfl

theorem drain_of_notMem {α : Type} [DecidableEq α] {sep : α} {xs : List α} (hxs : sep ∉ xs) :
    drain sep xs = ([], xs) := by
  have hdrain := drain_append_of_notMem hxs []
  rw [List.append_nil] at hdrain
  rw [hdrain]
  simp

/-- The beginning of a text has the first lines, and a rest that is the beginning of the next. -/
theorem drain_of_initial {α : Type} [DecidableEq α] {sep : α} {lines : List (List α)} {xs : List α}
    (hlines : ∀ line ∈ lines, sep ∉ line) (h : xs <+: lines.flatMap (· ++ [sep])) :
    (drain sep xs).1 <+: lines ∧
      ((drain sep xs).2 = [] ∨
        ∃ line, (drain sep xs).1 ++ [line] <+: lines ∧ (drain sep xs).2 <+: line) := by
  induction lines generalizing xs with
  | nil =>
    have hxs : xs = [] := List.prefix_nil.mp h
    subst hxs
    exact ⟨List.nil_prefix, .inl rfl⟩
  | cons line lines ih =>
    rw [List.flatMap_cons, List.append_assoc, List.singleton_append] at h
    have hline := hlines line List.mem_cons_self
    rcases Nat.lt_or_ge line.length xs.length with hlong | hshort
    · have hfirst : line ++ [sep] <+: line ++ sep :: lines.flatMap (· ++ [sep]) :=
        ⟨lines.flatMap (· ++ [sep]), by simp⟩
      have hall : line ++ [sep] <+: xs := by
        refine List.prefix_of_prefix_length_le hfirst h ?_
        rw [List.length_append, List.length_singleton]
        exact hlong
      obtain ⟨rest, rfl⟩ := hall
      rw [List.append_assoc, List.singleton_append, List.prefix_append_right_inj,
        List.cons_prefix_cons] at h
      obtain ⟨hfirst, hrest⟩ := ih (fun l hl => hlines l (List.mem_cons_of_mem _ hl)) h.2
      rw [List.append_assoc, List.singleton_append, drain_append_of_notMem hline, drain_cons_self]
      simp only [List.append_nil, List.cons_append, List.cons_prefix_cons, true_and]
      exact ⟨hfirst, hrest⟩
    · have hxs : xs <+: line := List.prefix_of_prefix_length_le h (List.prefix_append _ _) hshort
      rw [drain_of_notMem fun hmem => hline (hxs.subset hmem)]
      exact ⟨List.nil_prefix, .inr ⟨line, List.prefix_append [line] lines, hxs⟩⟩

/-- The first separator tells where the text goes on. -/
theorem append_sep_inj {α : Type} {sep : α} {xs xs' ys ys' : List α} (hxs : sep ∉ xs)
    (hxs' : sep ∉ xs') (h : xs ++ sep :: ys = xs' ++ sep :: ys') : xs = xs' ∧ ys = ys' := by
  induction xs generalizing xs' with
  | nil =>
    cases xs' with
    | nil => exact ⟨rfl, (List.cons.inj h).2⟩
    | cons x' xs' => exact absurd ((List.cons.inj h).1 ▸ List.mem_cons_self) hxs'
  | cons x xs ih =>
    cases xs' with
    | nil => exact absurd ((List.cons.inj h).1 ▸ List.mem_cons_self) hxs
    | cons x' xs' =>
      obtain ⟨rfl, htail⟩ := List.cons.inj h
      obtain ⟨rfl, hrest⟩ := ih (fun hx => hxs (List.mem_cons_of_mem _ hx))
        (fun hx => hxs' (List.mem_cons_of_mem _ hx)) htail
      exact ⟨rfl, hrest⟩

section Split

variable {α : Type} [DecidableEq α] {sep x : α} {xs : List α}

theorem split_eq (xs : List α) : split sep xs = (drain sep xs).1 ++ [(drain sep xs).2] := rfl

theorem split_of_notMem (hxs : sep ∉ xs) : split sep xs = [xs] := by
  rw [split_eq, drain_of_notMem hxs, List.nil_append]

theorem split_cons_self (xs : List α) : split sep (sep :: xs) = [] :: split sep xs := by
  rw [split_eq, split_eq, drain_cons_self, List.cons_append]

theorem split_cons_of_ne (hx : x ≠ sep) (xs : List α) :
    ∃ piece pieces, split sep xs = piece :: pieces ∧
      split sep (x :: xs) = (x :: piece) :: pieces := by
  rw [split_eq, split_eq, drain_cons_of_ne hx]
  cases (drain sep xs).1 with
  | nil => exact ⟨_, [], rfl, rfl⟩
  | cons line lines => exact ⟨line, lines ++ [(drain sep xs).2], rfl, rfl⟩

theorem split_append_cons (hxs : sep ∉ xs) (ys : List α) :
    split sep (xs ++ sep :: ys) = xs :: split sep ys := by
  rw [split_eq, split_eq, drain_append_of_notMem hxs, drain_cons_self]
  simp

/-- The pieces are read back. -/
theorem split_intercalate {pieces : List (List α)} (hne : pieces ≠ [])
    (hpieces : ∀ piece ∈ pieces, sep ∉ piece) :
    split sep ([sep].intercalate pieces) = pieces := by
  induction pieces with
  | nil => exact absurd rfl hne
  | cons piece pieces ih =>
    have hpiece := hpieces piece List.mem_cons_self
    cases pieces with
    | nil => rw [List.intercalate_singleton, split_of_notMem hpiece]
    | cons next pieces =>
      rw [List.intercalate_cons_cons, List.append_assoc, List.singleton_append,
        split_append_cons hpiece, ih (List.cons_ne_nil _ _)
          fun p hp => hpieces p (List.mem_cons_of_mem _ hp)]

theorem split_ne_nil (xs : List α) : split sep xs ≠ [] := by
  rw [split_eq]
  exact List.append_ne_nil_of_right_ne_nil _ (List.cons_ne_nil _ _)

/-- The pieces are put together again. -/
theorem intercalate_split (xs : List α) : [sep].intercalate (split sep xs) = xs := by
  induction xs with
  | nil => rfl
  | cons x xs ih =>
    by_cases hx : x = sep
    · subst hx
      obtain ⟨piece, pieces, hpieces⟩ := List.exists_cons_of_ne_nil (@split_ne_nil _ _ x xs)
      rw [hpieces] at ih
      rw [split_cons_self, hpieces, List.intercalate_cons_cons, ih]
      rfl
    · obtain ⟨piece, pieces, hpieces, hcons⟩ := split_cons_of_ne hx xs
      rw [hpieces] at ih
      rw [hcons]
      cases pieces with
      | nil =>
        rw [List.intercalate_singleton] at ih ⊢
        rw [ih]
      | cons next pieces =>
        rw [List.intercalate_cons_cons] at ih ⊢
        rw [← ih]
        rfl

/-- What is no separator is in a piece. -/
theorem exists_mem_split (hx : x ∈ xs) (hne : x ≠ sep) : ∃ piece ∈ split sep xs, x ∈ piece := by
  induction xs with
  | nil => cases hx
  | cons y ys ih =>
    by_cases hy : y = sep
    · subst hy
      rw [split_cons_self]
      obtain ⟨piece, hpiece, hmem⟩ := ih ((List.mem_cons.mp hx).resolve_left hne)
      exact ⟨piece, List.mem_cons_of_mem _ hpiece, hmem⟩
    · obtain ⟨first, rest, hys, hcons⟩ := split_cons_of_ne hy ys
      rw [hcons]
      rcases List.mem_cons.mp hx with rfl | hx
      · exact ⟨_, List.mem_cons_self, List.mem_cons_self⟩
      · obtain ⟨piece, hpiece, hmem⟩ := ih hx
        rw [hys] at hpiece
        rcases List.mem_cons.mp hpiece with rfl | hpiece
        · exact ⟨_, List.mem_cons_self, List.mem_cons_of_mem _ hmem⟩
        · exact ⟨piece, List.mem_cons_of_mem _ hpiece, hmem⟩

end Split

/-- The lines of the bytes are the bytes of the lines. -/
theorem drain_encode (text : List Char) : drain Utf8.lineFeed (Utf8.encode text) =
    ((drain '\n' text).1.map Utf8.encode, Utf8.encode (drain '\n' text).2) := by
  induction text with
  | nil => rfl
  | cons c text ih =>
    rw [Utf8.encode_cons]
    by_cases hc : c = '\n'
    · subst hc
      rw [show String.utf8EncodeChar '\n' ++ Utf8.encode text =
          Utf8.lineFeed :: Utf8.encode text from
        rfl, drain_cons_self, drain_cons_self, ih]
      rfl
    · rw [drain_append_of_notMem (Utf8.lineFeed_notMem_utf8EncodeChar hc), drain_cons_of_ne hc, ih]
      cases (drain '\n' text).1 <;> rfl

end Streams
