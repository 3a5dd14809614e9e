import CloudMesh.NearestRank
import CloudMesh.Pricing
import CloudMesh.Streams.Utf8
import CloudMesh.TimeWindow
import Mathlib.Data.Char
import Mathlib.Data.List.GetD
import Mathlib.Data.List.Lex

/-!
# Provider statistics

`apps/gateway/src/lib/providerStats.ts`, in exact arithmetic. The samples of a provider are members
of a sorted set, each a text that begins with its time, its latency and its outcome. The set is
trimmed when it is written and when it is read, and expires as a whole; what is read of it is what
the whole history of samples says.

## Main definitions

- `recordProviderOutcome`, `getProviderStats` — the two operations
- `after`, `recorded` — what operations leave in Redis, and the samples that they recorded
- `StatsOf` — the statistics of a history, by their definition
- `Answered` — what is read is what the history says
-/

namespace CloudMesh.Stats

open NearestRank Streams TimeWindow

/-! ## Texts of samples -/

/-- `${n}`. -/
def text : ℤ → List Char
  | .ofNat n => Nat.toDigits 10 n
  | .negSucc n => '-' :: Nat.toDigits 10 (n + 1)

/-- `Number(s)`, of the text of an integer. -/
def number : List Char → ℤ
  | '-' :: digits => -(Nat.ofDigitChars 10 digits 0 : ℕ)
  | digits => (Nat.ofDigitChars 10 digits 0 : ℕ)

structure Sample where
  now : ℤ
  latencyMs : ℚ
  success : Bool
  /-- `randomUUID()`. -/
  uuid : List Char
  deriving DecidableEq

/-- `Math.round(latencyMs)`. -/
def Sample.latency (sample : Sample) : ℤ := mathRound sample.latencyMs

def Sample.member (sample : Sample) : List Char :=
  text sample.now ++ ':' :: (text sample.latency ++ ':' ::
    ((if sample.success then ['1'] else ['0']) ++ ':' :: sample.uuid))

/-! ## The sorted set -/

/-- A score and a member. -/
abbrev Entry := ℤ × List Char

def Sample.entry (sample : Sample) : Entry := (sample.now, sample.member)

/-- A sorted set is in the order of the scores, and for one score in that of the members. -/
def EntryLe (a b : Entry) : Prop := a.1 < b.1 ∨ a.1 = b.1 ∧ a.2 ≤ b.2

instance : DecidableRel EntryLe := fun a b =>
  inferInstanceAs (Decidable (a.1 < b.1 ∨ a.1 = b.1 ∧ a.2 ≤ b.2))

structure SampleSet where
  entries : List Entry
  expireAt : ℤ
  deriving DecidableEq

/-- What is left of the key. -/
def alive (clock : ℤ) (set : Option SampleSet) : Option SampleSet :=
  set.filter fun s => clock < s.expireAt

def entriesOf (set : Option SampleSet) : List Entry := set.elim [] SampleSet.entries

/-- A member that is there already gets the new score. -/
def zadd (entry : Entry) (entries : List Entry) : List Entry :=
  (entries.filter fun e => e.2 ≠ entry.2).orderedInsert EntryLe entry

/-- From `-inf` on. -/
def zremrangebyscore (max : ℤ) (entries : List Entry) : List Entry :=
  entries.filter fun e => max < e.1

/-! ## `providerStats.ts` -/

def statsWindowMs : ℤ := 5 * 60000

def rpmWindowMs : ℤ := 60000

/-- `RECORD_SCRIPT`, at a time on which the caller and Redis agree. The entry that is added is not
trimmed. -/
def recordProviderOutcome (sample : Sample) (set : Option SampleSet) : Option SampleSet :=
  let entries := zadd sample.entry (entriesOf (alive sample.now set))
  some ⟨zremrangebyscore (sample.now - statsWindowMs) entries, sample.now + statsWindowMs⟩

def percentile (sorted : List ℤ) (p : ℚ) : ℤ :=
  if sorted.length = 0 then 0
  else
    let idx := min (sorted.length - 1 : ℤ) (⌈p / 100 * sorted.length⌉ - 1)
    sorted.getD (max 0 idx).toNat 0

def getProviderStats (now : ℤ) (set : Option SampleSet) : ProviderStats × Option SampleSet :=
  let set := alive now set
  let members := zremrangebyscore (now - statsWindowMs) (entriesOf set)
  -- a sorted set without a member is deleted
  let set := if members = [] then none else set.map fun s => { s with entries := members }
  if members.length = 0 then (⟨0, 0, 0, 0, 0⟩, set)
  else
    let parts := members.map fun member => split ':' member.2
    let latencies := parts.map fun p => number (p.getD 1 [])
    let successes := parts.countP fun p => p.getD 2 [] = ['1']
    let rpmCount := parts.countP fun p => now - number (p.getD 0 []) ≤ rpmWindowMs
    let sorted := latencies.insertionSort (· ≤ ·)
    (⟨members.length, percentile sorted 50, percentile sorted 99, successes / members.length,
      rpmCount⟩, set)

/-! ## Histories -/

inductive Event
  | record (sample : Sample)
  | read (now : ℤ)

def Event.time : Event → ℤ
  | .record sample => sample.now
  | .read now => now

/-- What the operations leave in Redis, the latest first. -/
def after : List Event → Option SampleSet
  | [] => none
  | .record sample :: earlier => recordProviderOutcome sample (after earlier)
  | .read now :: earlier => (getProviderStats now (after earlier)).2

/-- The samples that the operations recorded. -/
def recorded : List Event → List Sample
  | [] => []
  | .record sample :: earlier => sample :: recorded earlier
  | .read _ :: earlier => recorded earlier

/-- The operations lie before `now`, and in order. -/
def Before (now : ℤ) (events : List Event) : Prop :=
  (now :: events.map Event.time).Pairwise (· ≥ ·)

/-- The samples in `(now - 5 min, now]`. -/
def inWindow (now : ℤ) (samples : List Sample) : List Sample :=
  samples.filter fun s => now - statsWindowMs < s.now ∧ s.now ≤ now

/-- The statistics of the samples. -/
structure StatsOf (samples : List Sample) (now : ℤ) (stats : ProviderStats) : Prop where
  sampleCount : stats.sampleCount = (inWindow now samples).length
  successRate : stats.successRate =
    (inWindow now samples).countP Sample.success / (inWindow now samples).length
  /-- The number of samples in `[now - 60 s, now]`. -/
  rpmCurrent : stats.rpmCurrent =
    samples.countP fun s => now - rpmWindowMs ≤ s.now ∧ s.now ≤ now
  p50 : inWindow now samples ≠ [] → ∃ latency : ℤ, stats.p50Ms = latency ∧
    IsNearestRank (50 / 100) ((inWindow now samples).map Sample.latency) latency
  p99 : inWindow now samples ≠ [] → ∃ latency : ℤ, stats.p99Ms = latency ∧
    IsNearestRank (99 / 100) ((inWindow now samples).map Sample.latency) latency
  empty : inWindow now samples = [] → stats.p50Ms = 0 ∧ stats.p99Ms = 0

/-- What is read after the operations. -/
structure Answered (events : List Event) (now : ℤ) : Prop where
  stats : StatsOf (recorded events) now (getProviderStats now (after events)).1
  ordered : (getProviderStats now (after events)).1.p50Ms ≤
    (getProviderStats now (after events)).1.p99Ms
  /-- Only the samples matter, however often the statistics have been read. -/
  reads : ∀ others, Before now others → recorded others = recorded events →
    (getProviderStats now (after others)).1 = (getProviderStats now (after events)).1

/-! ## Reading a member back -/

section Members

variable {n : ℤ} {sample other : Sample}

theorem colon_notMem_toDigits (n : ℕ) : ':' ∉ Nat.toDigits 10 n :=
  fun h => absurd (Nat.isDigit_of_mem_toDigits (by decide) (by decide) h) (by decide)

theorem colon_notMem_text (n : ℤ) : ':' ∉ text n := by
  cases n with
  | ofNat n => exact colon_notMem_toDigits n
  | negSucc n =>
    rw [text, List.mem_cons, not_or]
    exact ⟨by decide, colon_notMem_toDigits (n + 1)⟩

theorem colon_notMem_flag (success : Bool) : ':' ∉ (if success then ['1'] else ['0']) := by
  cases success <;> decide

theorem number_text (n : ℤ) : number (text n) = n := by
  cases n with
  | ofNat n =>
    have hminus : '-' ∉ Nat.toDigits 10 n :=
      fun h => absurd (Nat.isDigit_of_mem_toDigits (by decide) (by decide) h) (by decide)
    rw [text, number]
    · rw [Nat.ofDigitChars_ten_toDigits]
      rfl
    · intro digits hdigits
      exact hminus (hdigits ▸ List.mem_cons_self)
  | negSucc n =>
    rw [text, number, Nat.ofDigitChars_ten_toDigits]
    rfl

/-- The parts of a member; what comes after the third colon is not looked at. -/
theorem split_member (sample : Sample) : split ':' sample.member =
    text sample.now :: text sample.latency :: (if sample.success then ['1'] else ['0']) ::
      split ':' sample.uuid := by
  rw [Sample.member, split_append_cons (colon_notMem_text _),
    split_append_cons (colon_notMem_text _), split_append_cons (colon_notMem_flag _)]

/-- Samples with different identifiers are different members. -/
theorem uuid_eq_of_member (h : sample.member = other.member) : sample.uuid = other.uuid := by
  rw [Sample.member, Sample.member] at h
  obtain ⟨-, hlatency⟩ := append_sep_inj (colon_notMem_text _) (colon_notMem_text _) h
  obtain ⟨-, hflag⟩ := append_sep_inj (colon_notMem_text _) (colon_notMem_text _) hlatency
  exact (append_sep_inj (colon_notMem_flag _) (colon_notMem_flag _) hflag).2

end Members

/-! ## Percentiles -/

section Percentiles

variable {latencies : List ℤ} {p : ℚ}

/-- The index is that of the nearest rank. -/
theorem isNearestRank_percentile (hsorted : latencies.Pairwise (· ≤ ·)) (hne : latencies ≠ [])
    (hp : 0 < p) (hle : p ≤ 100) :
    IsNearestRank (p / 100) latencies (percentile latencies p) := by
  have hlength : 0 < latencies.length := List.length_pos_iff.mpr hne
  have hcast : (0 : ℚ) < latencies.length := by exact_mod_cast hlength
  obtain ⟨rank, hrank⟩ : ∃ rank, rank = ⌈p / 100 * latencies.length⌉ := ⟨_, rfl⟩
  have hpos : 0 < rank := by
    rw [hrank, Int.ceil_pos]
    positivity
  have hmax : rank ≤ latencies.length := by
    rw [hrank, Int.ceil_le]
    push_cast
    exact mul_le_of_le_one_left hcast.le (by linarith)
  obtain ⟨i, hi⟩ : ∃ i : ℕ, rank = i + 1 := ⟨(rank - 1).toNat, by omega⟩
  have hindex : i < latencies.length := by omega
  have hvalue : percentile latencies p = latencies[i] := by
    -- the rank is from 1 to the length, so that neither bound moves the index
    have hidx : (max 0 (min ((latencies.length : ℤ) - 1) (rank - 1))).toNat = i := by omega
    simp only [percentile, if_neg hlength.ne', ← hrank, hidx]
    exact List.getD_eq_getElem _ _ hindex
  rw [hvalue]
  have hreached : p / 100 * latencies.length ≤ rank := hrank ▸ Int.le_ceil _
  have hleast : (rank : ℚ) < p / 100 * latencies.length + 1 := hrank ▸ Int.ceil_lt_add_one _
  rw [hi] at hreached hleast
  push_cast at hreached hleast
  exact isNearestRank_of_index hsorted hindex hreached (by linarith)

theorem isNearestRank_sort (hne : latencies ≠ []) (hp : 0 < p) (hle : p ≤ 100) :
    IsNearestRank (p / 100) latencies
      (percentile (latencies.insertionSort (· ≤ ·)) p) := by
  have hperm := List.perm_insertionSort (· ≤ ·) latencies
  have hsorted : latencies.insertionSort (· ≤ ·) ≠ [] :=
    fun hnil => hne (List.nil_perm.mp (hnil ▸ hperm))
  exact (isNearestRank_percentile (List.pairwise_insertionSort _ _) hsorted hp hle).perm hperm

end Percentiles

/-! ## What the set keeps -/

section Kept

variable {now last : ℤ} {samples : List Sample} {set : Option SampleSet} {sample : Sample}
  {events : List Event} {entry : Entry}

/-- What the set keeps of the samples up to `now`. -/
structure Kept (now : ℤ) (samples : List Sample) (set : Option SampleSet) : Prop where
  keeps : Keeps Prod.fst (now - statsWindowMs) (samples.map Sample.entry) (entriesOf set)
  lives : ∀ s ∈ set, ∀ sample ∈ samples, sample.now + statsWindowMs ≤ s.expireAt
  known : ∀ e ∈ entriesOf set, e ∈ samples.map Sample.entry

theorem kept_nil (now : ℤ) : Kept now [] none where
  keeps := Keeps.refl []
  lives _ hs := (Option.not_mem_none _ hs).elim
  known _ he := he

theorem Kept.mono (h : Kept last samples set) (hle : last ≤ now) : Kept now samples set :=
  ⟨h.keeps.mono (sub_le_sub_right hle _), h.lives, h.known⟩

/-- The key expires when no sample counts any more. -/
theorem Kept.alive (h : Kept now samples set) : Kept now samples (alive now set) := by
  cases set with
  | none => exact h
  | some s =>
    have hentries : entriesOf (Stats.alive now (some s)) =
        if now < s.expireAt then s.entries else [] := by
      by_cases hlive : now < s.expireAt <;> simp [Stats.alive, entriesOf, Option.filter, hlive]
    refine ⟨?_, fun t ht => h.lives t (Option.mem_filter_iff.mp ht).1, fun e he => ?_⟩
    · -- the expiry was set a window after the last sample
      rw [hentries]
      refine h.keeps.expire _ fun hdead x hx => ?_
      obtain ⟨sample, hsample, rfl⟩ := List.mem_map.mp hx
      have hlives := h.lives s rfl sample hsample
      show sample.now ≤ now - statsWindowMs
      omega
    · rw [hentries] at he
      split at he
      · exact h.known e he
      · cases he

theorem Kept.trim (h : Kept now samples set) :
    Keeps Prod.fst (now - statsWindowMs) (samples.map Sample.entry)
      (zremrangebyscore (now - statsWindowMs) (entriesOf set)) :=
  h.keeps.filter _ fun _ _ hlate => decide_eq_true hlate

/-- A member that is new is added. -/
theorem zadd_perm {entries : List Entry} (h : ∀ e ∈ entries, e.2 ≠ entry.2) :
    (zadd entry entries).Perm (entry :: entries) := by
  rw [zadd, List.filter_eq_self.mpr fun e he => decide_eq_true (h e he)]
  exact List.perm_orderedInsert EntryLe entry entries

/-! ### One operation -/

theorem Kept.record (h : Kept sample.now samples set) (hpast : ∀ s ∈ samples, s.now ≤ sample.now)
    (hfresh : sample.uuid ∉ samples.map Sample.uuid) :
    Kept sample.now (sample :: samples) (recordProviderOutcome sample set) := by
  -- `ZADD` would only move a member that is there already
  have hnew : ∀ e ∈ entriesOf (Stats.alive sample.now set), e.2 ≠ sample.entry.2 := by
    intro e he hmember
    obtain ⟨other, hother, rfl⟩ := List.mem_map.mp (h.alive.known e he)
    exact hfresh (uuid_eq_of_member hmember ▸ List.mem_map_of_mem hother)
  have hperm := zadd_perm hnew
  have hkeeps : Keeps Prod.fst (sample.now - statsWindowMs)
      ((sample :: samples).map Sample.entry)
      (zadd sample.entry (entriesOf (Stats.alive sample.now set))) :=
    (h.alive.keeps.cons sample.entry).perm hperm
  refine ⟨hkeeps.filter _ fun _ _ hlate => decide_eq_true hlate, ?_, ?_⟩
  · intro s hs other hother
    obtain rfl := Option.mem_some_iff.mp hs
    rcases List.mem_cons.mp hother with rfl | hother
    · exact le_rfl
    · exact add_le_add_left (hpast other hother) _
  · intro e he
    have hmem := hperm.mem_iff.mp (List.mem_of_mem_filter he)
    rw [List.map_cons]
    exact List.mem_cons.mpr ((List.mem_cons.mp hmem).imp_right (h.alive.known e))

/-- A read trims, and loses nothing that counts. -/
theorem Kept.read (h : Kept now samples set) :
    Kept now samples (getProviderStats now set).2 := by
  have hset : (getProviderStats now set).2 =
      if zremrangebyscore (now - statsWindowMs) (entriesOf (Stats.alive now set)) = [] then none
      else (Stats.alive now set).map fun s =>
        ⟨zremrangebyscore (now - statsWindowMs) (entriesOf (Stats.alive now set)), s.expireAt⟩ := by
    unfold getProviderStats
    dsimp only
    split <;> rfl
  have htrim := h.alive.trim
  rw [hset]
  split
  · next hnil =>
    -- the key is gone with its last member, and none of its members counted
    rw [hnil] at htrim
    exact ⟨htrim, fun _ hs => (Option.not_mem_none _ hs).elim,
      fun _ he => (List.not_mem_nil he).elim⟩
  · next hne =>
    cases halive : Stats.alive now set with
    | none => exact absurd (by rw [halive]; rfl) hne
    | some s =>
      rw [halive] at htrim
      refine ⟨htrim, fun t ht sample hsample => ?_, fun e he => ?_⟩
      · obtain rfl := Option.mem_some_iff.mp ht
        exact h.alive.lives s halive sample hsample
      · have hmem : e ∈ entriesOf (Stats.alive now set) := by
          rw [halive]
          exact List.mem_of_mem_filter he
        exact h.alive.known e hmem

/-! ### All operations -/

theorem Before.earlier {event : Event} (h : Before now (event :: events)) :
    event.time ≤ now ∧ Before event.time events := by
  have hcons := List.pairwise_cons.mp h
  exact ⟨hcons.1 _ List.mem_cons_self, hcons.2⟩

theorem mem_recorded (h : sample ∈ recorded events) : Event.record sample ∈ events := by
  induction events with
  | nil => cases h
  | cons event earlier ih =>
    cases event with
    | record other =>
      rcases List.mem_cons.mp h with rfl | h
      · exact List.mem_cons_self
      · exact List.mem_cons_of_mem _ (ih h)
    | read time => exact List.mem_cons_of_mem _ (ih h)

theorem Before.le_of_mem (h : Before now events) (hsample : sample ∈ recorded events) :
    sample.now ≤ now :=
  (List.pairwise_cons.mp h).1 _ (List.mem_map_of_mem (mem_recorded hsample))

theorem kept_after (h : Before now events)
    (huuid : ((recorded events).map Sample.uuid).Nodup) :
    Kept now (recorded events) (after events) := by
  induction events generalizing now with
  | nil => exact kept_nil now
  | cons event earlier ih =>
    obtain ⟨hle, hearlier⟩ := h.earlier
    -- the latest operation comes first, and finds what the earlier ones have left
    cases event with
    | record sample =>
      rw [recorded, List.map_cons, List.nodup_cons] at huuid
      exact ((ih hearlier huuid.2).record (fun s hs => hearlier.le_of_mem hs) huuid.1).mono hle
    | read time => exact ((ih hearlier huuid).read).mono hle

end Kept

/-! ## What is read -/

section Read

variable {now : ℤ} {samples : List Sample} {set : Option SampleSet} {events : List Event}
  {stats other : ProviderStats}

theorem past_map_entry (hpast : ∀ s ∈ samples, s.now ≤ now) :
    past Prod.fst (now - statsWindowMs) (samples.map Sample.entry) =
      (inWindow now samples).map Sample.entry := by
  rw [past, List.filter_map]
  congr 1
  refine List.filter_congr fun s hs => decide_eq_decide.mpr ?_
  exact (and_iff_left (hpast s hs)).symm

/-- What is read are the samples of the window. -/
theorem Kept.read_perm (h : Kept now samples set) (hpast : ∀ s ∈ samples, s.now ≤ now) :
    (zremrangebyscore (now - statsWindowMs) (entriesOf (Stats.alive now set))).Perm
      ((inWindow now samples).map Sample.entry) := by
  rw [← past_map_entry hpast]
  exact h.alive.trim.perm_past fun e he => of_decide_eq_true (List.mem_filter.mp he).2

/-- The parts of the members that are read. -/
theorem parts_perm {members : List Entry}
    (h : members.Perm ((inWindow now samples).map Sample.entry)) :
    (members.map fun member => split ':' member.2).Perm
      ((inWindow now samples).map fun s => split ':' s.member) := by
  have hmap := h.map fun member => split ':' member.2
  rwa [List.map_map] at hmap

theorem latencies_perm {parts : List (List (List Char))}
    (h : parts.Perm ((inWindow now samples).map fun s => split ':' s.member)) :
    (parts.map fun p => number (p.getD 1 [])).Perm
      ((inWindow now samples).map Sample.latency) := by
  have hmap := h.map fun p => number (p.getD 1 [])
  rw [List.map_map] at hmap
  refine hmap.trans (List.Perm.of_eq (List.map_congr_left fun s _ => ?_))
  show number ((split ':' s.member).getD 1 []) = s.latency
  rw [split_member]
  exact number_text _

theorem countP_success {parts : List (List (List Char))}
    (h : parts.Perm ((inWindow now samples).map fun s => split ':' s.member)) :
    (parts.countP fun p => p.getD 2 [] = ['1']) = (inWindow now samples).countP Sample.success := by
  rw [h.countP_eq, List.countP_map]
  refine List.countP_congr fun s _ => ?_
  show decide ((split ':' s.member).getD 2 [] = ['1']) = true ↔ _
  rw [split_member]
  cases s.success <;> simp

theorem countP_rpm (hpast : ∀ s ∈ samples, s.now ≤ now) {parts : List (List (List Char))}
    (h : parts.Perm ((inWindow now samples).map fun s => split ':' s.member)) :
    (parts.countP fun p => now - number (p.getD 0 []) ≤ rpmWindowMs) =
      samples.countP fun s => now - rpmWindowMs ≤ s.now ∧ s.now ≤ now := by
  rw [h.countP_eq, List.countP_map, inWindow, List.countP_filter]
  refine List.countP_congr fun s hs => ?_
  have hnow := hpast s hs
  have htime : number ((split ':' s.member).getD 0 []) = s.now := by
    rw [split_member]
    exact number_text _
  have hwindow : rpmWindowMs < statsWindowMs := by decide
  simp only [Function.comp_apply, htime, Bool.and_eq_true, decide_eq_true_eq]
  omega

/-- The statistics of a window with a sample. -/
theorem getProviderStats_of_ne_nil {members : List Entry} (hne : members ≠ [])
    (hmembers : members = zremrangebyscore (now - statsWindowMs) (entriesOf (alive now set))) :
    (getProviderStats now set).1 =
      let parts := members.map fun member => split ':' member.2
      let sorted := (parts.map fun p => number (p.getD 1 [])).insertionSort (· ≤ ·)
      ⟨members.length, percentile sorted 50, percentile sorted 99,
        (parts.countP fun p => p.getD 2 [] = ['1']) / members.length,
        parts.countP fun p => now - number (p.getD 0 []) ≤ rpmWindowMs⟩ := by
  unfold getProviderStats
  dsimp only
  rw [← hmembers, if_neg fun hzero => hne (List.length_eq_zero_iff.mp hzero)]

theorem getProviderStats_of_nil
    (h : zremrangebyscore (now - statsWindowMs) (entriesOf (alive now set)) = []) :
    (getProviderStats now set).1 = ⟨0, 0, 0, 0, 0⟩ := by
  unfold getProviderStats
  dsimp only
  rw [h]
  rfl

/-- What is read of a set that keeps the samples are their statistics. -/
theorem Kept.statsOf (h : Kept now samples set) (hpast : ∀ s ∈ samples, s.now ≤ now) :
    StatsOf samples now (getProviderStats now set).1 := by
  obtain ⟨members, hmembers⟩ : ∃ members, members =
      zremrangebyscore (now - statsWindowMs) (entriesOf (Stats.alive now set)) := ⟨_, rfl⟩
  have hperm := h.read_perm hpast
  rw [← hmembers] at hperm
  by_cases hnil : members = []
  · have hwindow : inWindow now samples = [] := by
      rw [hnil, List.nil_perm, List.map_eq_nil_iff] at hperm
      exact hperm
    have hrpm := countP_rpm hpast (parts_perm hperm)
    rw [getProviderStats_of_nil (hmembers.symm.trans hnil)]
    constructor
    case rpmCurrent => simpa [hnil] using hrpm
    all_goals simp [hwindow]
  · have hparts := parts_perm hperm
    have hlatencies := latencies_perm hparts
    have hlength : members.length = (inWindow now samples).length := by
      rw [hperm.length_eq, List.length_map]
    have hne : inWindow now samples ≠ [] := by
      intro hwindow
      rw [hwindow, List.map_nil, List.perm_nil] at hperm
      exact hnil hperm
    have hsorted : ((members.map fun member => split ':' member.2).map fun p =>
        number (p.getD 1 [])) ≠ [] := by simpa using hnil
    rw [getProviderStats_of_ne_nil hnil hmembers]
    dsimp only
    constructor
    case sampleCount => exact_mod_cast hlength
    case successRate => rw [countP_success hparts, hlength]
    case rpmCurrent => exact_mod_cast countP_rpm hpast hparts
    case p50 =>
      intro _
      exact ⟨_, rfl, (isNearestRank_sort hsorted (by norm_num) (by norm_num)).perm hlatencies⟩
    case p99 =>
      intro _
      exact ⟨_, rfl, (isNearestRank_sort hsorted (by norm_num) (by norm_num)).perm hlatencies⟩
    case empty => exact fun hwindow => absurd hwindow hne

theorem StatsOf.ordered (h : StatsOf samples now stats) : stats.p50Ms ≤ stats.p99Ms := by
  by_cases hnil : inWindow now samples = []
  · obtain ⟨h50, h99⟩ := h.empty hnil
    rw [h50, h99]
  · obtain ⟨p50, h50, hrank50⟩ := h.p50 hnil
    obtain ⟨p99, h99, hrank99⟩ := h.p99 hnil
    rw [h50, h99]
    exact_mod_cast hrank50.le hrank99 (by norm_num)

/-- A history has one set of statistics. -/
theorem StatsOf.unique (h : StatsOf samples now stats) (h' : StatsOf samples now other) :
    stats = other := by
  have hpercentiles : stats.p50Ms = other.p50Ms ∧ stats.p99Ms = other.p99Ms := by
    by_cases hnil : inWindow now samples = []
    · obtain ⟨h50, h99⟩ := h.empty hnil
      obtain ⟨h50', h99'⟩ := h'.empty hnil
      exact ⟨h50.trans h50'.symm, h99.trans h99'.symm⟩
    · obtain ⟨p50, h50, hrank50⟩ := h.p50 hnil
      obtain ⟨p50', h50', hrank50'⟩ := h'.p50 hnil
      obtain ⟨p99, h99, hrank99⟩ := h.p99 hnil
      obtain ⟨p99', h99', hrank99'⟩ := h'.p99 hnil
      rw [h50, h50', h99, h99', hrank50.unique hrank50', hrank99.unique hrank99']
      exact ⟨rfl, rfl⟩
  have hcount := h.sampleCount.trans h'.sampleCount.symm
  have hsuccess := h.successRate.trans h'.successRate.symm
  have hrpm := h.rpmCurrent.trans h'.rpmCurrent.symm
  cases stats
  cases other
  simp_all

/-- The statistics are those of the samples that were recorded, whatever has been read. -/
theorem providerStats_answered (events : List Event) (now : ℤ) (h : Before now events)
    (huuid : ((recorded events).map Sample.uuid).Nodup) : Answered events now := by
  have hstats := (kept_after h huuid).statsOf fun s hs => h.le_of_mem hs
  refine ⟨hstats, hstats.ordered, fun others hothers hrecorded => ?_⟩
  have huuid' : ((recorded others).map Sample.uuid).Nodup := hrecorded ▸ huuid
  have hstats' := (kept_after hothers huuid').statsOf fun s hs => hothers.le_of_mem hs
  rw [hrecorded] at hstats'
  exact hstats'.unique hstats

/-- Two equal samples, with a read between them. -/
theorem providerStats_answered_twice :
    Answered [.record ⟨7, 5 / 2, true, ['b']⟩, .read 7, .record ⟨7, 5 / 2, true, ['a']⟩] 8 :=
  providerStats_answered _ 8 (by simp [Before, Event.time]) (by decide)

end Read

end CloudMesh.Stats
