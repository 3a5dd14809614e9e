import CloudMesh.Gateway.FeatureFlags
import CloudMesh.Rows
import CloudMesh.WeightedChoice

/-!
# How A/B traffic splits

`selectAbVariant` of `apps/gateway/src/lib/routing.ts` on the configurations that `coerceAbConfig`
returns. The names of the available variants are looked up again for their weights; since the keys
of an object are distinct and the weights are positive, the subtracting roll is a weighted choice,
and its fall-through is never reached. All of this is about exact numbers, for which the rounding
of the code is `id`.

## Main definitions

- `Returned` — the configurations that `coerceAbConfig` returns
- `availableVariants` — the variants that can be chosen, with their weights
- `Splits` — each of them gets its share of the rolls
-/

namespace CloudMesh.AbSplit

open CircuitBreaker FeatureFlags WeightedChoice

/-- The variants that `coerceAbConfig` returns for a stored value, in the order of `Object.keys`. -/
def Returned (abConfig : AbConfig) : Prop :=
  ∃ value fields, coerceAbConfig value = some fields ∧
    ownEntries fields = abConfig.map fun variant => (utf16 variant.1, .number variant.2)

section Definitions

variable (registry : ModelRegistry) (circuits : String → CircuitKey)
  (stats : String → ProviderStats) (abConfig : AbConfig)

/-- The variants that resolve to a provider whose circuit is not stored as open, with their
weights. -/
def availableVariants : List (ℚ × String × ResolvedModel) :=
  abConfig.filterMap fun variant =>
    (openCandidate registry circuits variant.1).map fun candidate => (variant.2, candidate)

def weights : List ℚ := (availableVariants registry circuits abConfig).map Prod.fst

def realWeights : List ℝ := (weights registry circuits abConfig).map Rat.cast

/-- The selection of an available variant. -/
def selectionOf (variant : ℚ × String × ResolvedModel) : AbSelection :=
  ⟨variant.2.1, variant.2.2, variant.1, variant.1 / (weights registry circuits abConfig).sum⟩

/-- `selectAbVariant` with the random number `r`. -/
def select (r : ℚ) : Except Thrown (Option AbSelection) :=
  selectAbVariant id registry (redisAt circuits stats) abConfig (.ok r)

/-- The traffic splits in proportion to the weights of the available variants. -/
structure Splits : Prop where
  /-- Nothing is selected iff no variant is available, whatever the random number. -/
  none_iff : ∀ r, select registry circuits stats abConfig r = .ok none ↔
    ∀ variant ∈ abConfig, ∀ resolved, registry.resolve variant.1 = some resolved →
      (circuits resolved.provider.name).state = .opened
  /-- Else an available variant is selected. -/
  available : ∀ r, 0 ≤ r → r < 1 → select registry circuits stats abConfig r ≠ .ok none →
    ∃ variant ∈ availableVariants registry circuits abConfig,
      select registry circuits stats abConfig r =
        .ok (some (selectionOf registry circuits abConfig variant))
  /-- A variant is selected for the random numbers of its share. -/
  chosen_iff : ∀ r, 0 ≤ r → r < 1 → ∀ i variant,
    (availableVariants registry circuits abConfig)[i]? = some variant →
      (select registry circuits stats abConfig r =
          .ok (some (selectionOf registry circuits abConfig variant)) ↔
        (r : ℝ) ∈ share (realWeights registry circuits abConfig) i)
  /-- The shares are in proportion to the weights. -/
  measure : ∀ i variant, (availableVariants registry circuits abConfig)[i]? = some variant →
    MeasureTheory.volume (share (realWeights registry circuits abConfig) i) =
      ENNReal.ofReal ((variant.1 / (weights registry circuits abConfig).sum : ℚ) : ℝ)

end Definitions

/-! ## The configurations -/

section Configurations

variable {abConfig : AbConfig} {key : JsString} {value : Json}
  {entries fields : List (JsString × Json)}

theorem keys_insertField (h : key ∉ fields.map Prod.fst) :
    (Json.insertField key value fields).map Prod.fst = fields.map Prod.fst ++ [key] := by
  induction fields with
  | nil => rfl
  | cons field fields ih =>
    rw [List.map_cons, List.mem_cons, not_or] at h
    rw [Json.insertField, if_neg (Ne.symm h.1), List.map_cons, ih h.2]
    rfl

theorem keys_insertField_of_mem (h : key ∈ fields.map Prod.fst) :
    (Json.insertField key value fields).map Prod.fst = fields.map Prod.fst := by
  induction fields with
  | nil => cases h
  | cons field fields ih =>
    rw [Json.insertField]
    by_cases hkey : field.1 = key
    · rw [if_pos hkey, List.map_cons, List.map_cons, hkey]
    · rw [if_neg hkey, List.map_cons, List.map_cons,
        ih ((List.mem_cons.mp h).resolve_left (Ne.symm hkey))]

/-- An object has each key once. -/
theorem nodup_insertField (h : (fields.map Prod.fst).Nodup) :
    ((Json.insertField key value fields).map Prod.fst).Nodup := by
  by_cases hkey : key ∈ fields.map Prod.fst
  · rw [keys_insertField_of_mem hkey]
    exact h
  · rw [keys_insertField hkey]
    exact List.nodup_append_comm.mp (List.nodup_cons.mpr ⟨hkey, h⟩)

theorem nodup_fromEntries (entries : List (JsString × Json)) :
    ((fromEntries entries).map Prod.fst).Nodup := by
  suffices h : ∀ fields : List (JsString × Json), (fields.map Prod.fst).Nodup →
      ((entries.foldl (fun fields entry => Json.insertField entry.1 entry.2 fields)
        fields).map Prod.fst).Nodup from h [] List.nodup_nil
  induction entries with
  | nil => exact fun _ h => h
  | cons entry entries ih => exact fun fields h => ih _ (nodup_insertField h)

theorem nodup_of_coerceAbConfig {raw : Option Json} (h : coerceAbConfig raw = some fields) :
    (fields.map Prod.fst).Nodup := by
  unfold coerceAbConfig at h
  split at h
  · next stored =>
    -- without a valid variant there is no configuration
    by_cases hnil : ((ownEntries stored).filter isVariant).isEmpty = true
    · simp [hnil] at h
    · simp only [hnil, Bool.false_eq_true, if_false, Option.some.injEq] at h
      rw [← h]
      exact nodup_fromEntries _
  · cases h

theorem ownEntries_perm (fields : List (JsString × Json)) : (ownEntries fields).Perm fields :=
  ((List.perm_insertionSort IndexLe _).append_right _).trans (List.filter_append_perm _ _)

/-- The names of the variants are distinct. -/
theorem Returned.nodup (h : Returned abConfig) : (abConfig.map Prod.fst).Nodup := by
  obtain ⟨value, fields, hfields, hentries⟩ := h
  have hkeys : ((abConfig.map Prod.fst).map utf16).Nodup := by
    have hmap : (abConfig.map Prod.fst).map utf16 = (ownEntries fields).map Prod.fst := by
      rw [hentries, List.map_map, List.map_map]
      rfl
    rw [hmap]
    exact ((ownEntries_perm fields).map Prod.fst).nodup_iff.mpr (nodup_of_coerceAbConfig hfields)
  exact List.Nodup.of_map utf16 hkeys

theorem Returned.weight_pos (h : Returned abConfig) : ∀ variant ∈ abConfig, 0 < variant.2 := by
  obtain ⟨value, fields, hfields, hentries⟩ := h
  intro variant hvariant
  have hmem : (utf16 variant.1, Json.number variant.2) ∈ ownEntries fields := by
    rw [hentries]
    exact List.mem_map_of_mem hvariant
  obtain ⟨-, w, hw, hpos, -⟩ :=
    (abConfigValid_of_coerceAbConfig hfields).entries _ (mem_ownEntries.mp hmem)
  obtain rfl := Json.number.inj hw
  exact hpos

end Configurations

/-! ## One selection -/

section Selection

variable {registry : ModelRegistry} {circuits : String → CircuitKey}
  {stats : String → ProviderStats} {abConfig : AbConfig}
  {variant : ℚ × String × ResolvedModel} {roll r : ℚ} {i : ℕ}

theorem openCandidate_eq_some_iff {model : String} {candidate : String × ResolvedModel} :
    openCandidate registry circuits model = some candidate ↔ candidate.1 = model ∧
      registry.resolve model = some candidate.2 ∧
        (circuits candidate.2.provider.name).state ≠ .opened := by
  obtain ⟨name, resolved⟩ := candidate
  cases hresolve : registry.resolve model with
  | none => simp [openCandidate, hresolve]
  | some r =>
    by_cases hstate : (circuits r.provider.name).state = .opened
    · simp only [openCandidate, hresolve, Option.bind_some, hstate, ne_eq, not_true_eq_false,
        if_false, Option.some.injEq, false_iff, not_and, not_not, reduceCtorEq]
      rintro rfl rfl
      exact hstate
    · simp only [openCandidate, hresolve, Option.bind_some, ne_eq, hstate, not_false_eq_true,
        if_true, Option.some.injEq, Prod.mk.injEq]
      constructor
      · rintro ⟨rfl, rfl⟩
        exact ⟨rfl, rfl, hstate⟩
      · rintro ⟨rfl, rfl, -⟩
        exact ⟨rfl, rfl⟩

theorem mem_availableVariants : variant ∈ availableVariants registry circuits abConfig ↔
    (variant.2.1, variant.1) ∈ abConfig ∧
      openCandidate registry circuits variant.2.1 = some variant.2 := by
  rw [availableVariants, List.mem_filterMap]
  constructor
  · rintro ⟨⟨model, weight⟩, hentry, hmap⟩
    obtain ⟨candidate, hcandidate, rfl⟩ := Option.map_eq_some_iff.mp hmap
    obtain rfl : candidate.1 = model := (openCandidate_eq_some_iff.mp hcandidate).1
    exact ⟨hentry, hcandidate⟩
  · rintro ⟨hentry, hcandidate⟩
    exact ⟨_, hentry, by rw [hcandidate, Option.map_some]⟩

theorem map_snd_availableVariants :
    (availableVariants registry circuits abConfig).map Prod.snd =
      (abConfig.map Prod.fst).filterMap (openCandidate registry circuits) := by
  rw [availableVariants, List.map_filterMap, List.filterMap_map]
  refine List.filterMap_congr fun entry _ => ?_
  simp [Option.map_map, Function.comp_def]

/-- The weight of an available variant is found under its name. -/
theorem lookup_weight (hnodup : (abConfig.map Prod.fst).Nodup)
    (h : variant ∈ availableVariants registry circuits abConfig) :
    (abConfig.lookup variant.2.1).getD 0 = variant.1 := by
  rw [CloudMesh.lookup_of_mem hnodup (mem_availableVariants.mp h).1, Option.getD_some]

/-- The roll over the names is a weighted choice. -/
theorem rollVariant_eq {available : List (ℚ × String × ResolvedModel)}
    (h : ∀ variant ∈ available, (abConfig.lookup variant.2.1).getD 0 = variant.1) (roll : ℚ) :
    rollVariant id abConfig roll (available.map Prod.snd) =
      (pick roll (available.map Prod.fst)).bind fun i => (available.map Prod.snd)[i]? := by
  induction available generalizing roll with
  | nil => rfl
  | cons variant available ih =>
    have hweight := h variant List.mem_cons_self
    rw [List.map_cons, List.map_cons, rollVariant, pick]
    simp only [hweight, id_eq]
    split
    · rfl
    · rw [ih fun other hother => h other (List.mem_cons_of_mem _ hother), Option.bind_map]
      rfl

theorem foldl_add_eq_sum {α : Type} (weightOf : α → ℚ) (xs : List α) :
    xs.foldl (fun sum x => sum + weightOf x) 0 = (xs.map weightOf).sum := by
  rw [List.sum_eq_foldl, List.foldl_map]

/-- The selection is the candidate that the roll finds. -/
theorem selectAbVariant_eq {candidates : List (String × ResolvedModel)}
    {candidate : String × ResolvedModel}
    (hcandidates : resolveOpenCandidates registry (redisAt circuits stats)
      (abConfig.map Prod.fst) = .ok candidates)
    (hroll : rollVariant id abConfig
      (r * (candidates.map fun c => (abConfig.lookup c.1).getD 0).sum) candidates =
        some candidate) :
    selectAbVariant id registry (redisAt circuits stats) abConfig (.ok r) =
      .ok (some ⟨candidate.1, candidate.2, (abConfig.lookup candidate.1).getD 0,
        (abConfig.lookup candidate.1).getD 0 /
          (candidates.map fun c => (abConfig.lookup c.1).getD 0).sum⟩) := by
  cases candidates with
  | nil => cases hroll
  | cons first rest =>
    rw [selectAbVariant, hcandidates, ok_bind]
    simp only [ok_bind, id_eq, foldl_add_eq_sum, hroll, Option.getD_some]
    rfl

/-- With the random number `r` in its interval, a variant is selected. -/
theorem select_of_pick (hnodup : (abConfig.map Prod.fst).Nodup)
    (hvariant : (availableVariants registry circuits abConfig)[i]? = some variant)
    (hpick : pick (r * (weights registry circuits abConfig).sum)
      (weights registry circuits abConfig) = some i) :
    select registry circuits stats abConfig r =
      .ok (some (selectionOf registry circuits abConfig variant)) := by
  have hweights : ∀ other ∈ availableVariants registry circuits abConfig,
      (abConfig.lookup other.2.1).getD 0 = other.1 := fun other h => lookup_weight hnodup h
  -- the code looks the weights up again, under the names of the candidates
  have htotal : (((availableVariants registry circuits abConfig).map Prod.snd).map
      fun c => (abConfig.lookup c.1).getD 0).sum = (weights registry circuits abConfig).sum := by
    rw [List.map_map]
    exact congrArg List.sum (List.map_congr_left hweights)
  have hroll : rollVariant id abConfig (r * (weights registry circuits abConfig).sum)
      ((availableVariants registry circuits abConfig).map Prod.snd) = some variant.2 := by
    rw [rollVariant_eq hweights]
    show (pick _ (weights registry circuits abConfig)).bind _ = _
    rw [hpick, Option.bind_some, List.getElem?_map, hvariant, Option.map_some]
  have hcandidates := @resolveOpenCandidates_redisAt registry circuits stats (abConfig.map Prod.fst)
  rw [← map_snd_availableVariants] at hcandidates
  rw [select, selectAbVariant_eq hcandidates (htotal ▸ hroll), htotal,
    hweights variant (List.mem_of_getElem? hvariant)]
  rfl

theorem select_eq_none_iff : select registry circuits stats abConfig r = .ok none ↔
    availableVariants registry circuits abConfig = [] := by
  have hcandidates := @resolveOpenCandidates_redisAt registry circuits stats (abConfig.map Prod.fst)
  rw [← map_snd_availableVariants] at hcandidates
  rw [select, selectAbVariant, hcandidates, ok_bind]
  cases availableVariants registry circuits abConfig with
  | nil => exact iff_of_true rfl rfl
  | cons first rest => exact iff_of_false (fun h => by cases h) (List.cons_ne_nil _ _)

theorem availableVariants_eq_nil_iff : availableVariants registry circuits abConfig = [] ↔
    ∀ variant ∈ abConfig, ∀ resolved, registry.resolve variant.1 = some resolved →
      (circuits resolved.provider.name).state = .opened := by
  rw [List.eq_nil_iff_forall_not_mem]
  constructor
  · intro h variant hvariant resolved hresolved
    by_contra hopen
    exact h (variant.2, variant.1, resolved) (mem_availableVariants.mpr
      ⟨hvariant, openCandidate_eq_some_iff.mpr ⟨rfl, hresolved, hopen⟩⟩)
  · intro h variant hvariant
    obtain ⟨hmem, hcandidate⟩ := mem_availableVariants.mp hvariant
    obtain ⟨-, hresolved, hopen⟩ := openCandidate_eq_some_iff.mp hcandidate
    exact hopen (h _ hmem _ hresolved)

end Selection

/-! ## All random numbers -/

section Shares

variable {registry : ModelRegistry} {circuits : String → CircuitKey}
  {stats : String → ProviderStats} {abConfig : AbConfig}
  {variant : ℚ × String × ResolvedModel} {r : ℚ} {i : ℕ}

theorem weights_pos (hpos : ∀ variant ∈ abConfig, 0 < variant.2) :
    ∀ w ∈ weights registry circuits abConfig, 0 < w := by
  intro w hw
  obtain ⟨variant, hvariant, rfl⟩ := List.mem_map.mp hw
  exact hpos _ (mem_availableVariants.mp hvariant).1

theorem sum_realWeights : (realWeights registry circuits abConfig).sum =
    ((weights registry circuits abConfig).sum : ℚ) :=
  (map_list_sum (Rat.castHom ℝ) _).symm

theorem realWeights_pos (hpos : ∀ variant ∈ abConfig, 0 < variant.2) :
    ∀ w ∈ realWeights registry circuits abConfig, 0 < w := by
  intro w hw
  obtain ⟨v, hv, rfl⟩ := List.mem_map.mp hw
  exact Rat.cast_pos.mpr (weights_pos hpos v hv)

/-- The share of a variant has the random numbers for which the roll finds it. -/
theorem mem_share_iff (hpos : ∀ variant ∈ abConfig, 0 < variant.2) (hr : 0 ≤ r) (hlt : r < 1) :
    (r : ℝ) ∈ share (realWeights registry circuits abConfig) i ↔
      pick (r * (weights registry circuits abConfig).sum)
        (weights registry circuits abConfig) = some i := by
  rw [pick_eq_some_iff fun w hw => (weights_pos hpos w hw).le, ← lands_cast, Rat.cast_mul,
    ← sum_realWeights]
  exact ⟨fun h => h.2.2, fun h => ⟨by exact_mod_cast hr, by exact_mod_cast hlt, h⟩⟩

theorem exists_selected (hpos : ∀ variant ∈ abConfig, 0 < variant.2) (hlt : r < 1)
    (hne : availableVariants registry circuits abConfig ≠ []) :
    ∃ i variant, (availableVariants registry circuits abConfig)[i]? = some variant ∧
      pick (r * (weights registry circuits abConfig).sum)
        (weights registry circuits abConfig) = some i := by
  have hnonneg : ∀ w ∈ weights registry circuits abConfig, 0 ≤ w :=
    fun w hw => (weights_pos hpos w hw).le
  have hroll : r * (weights registry circuits abConfig).sum ≤
      (weights registry circuits abConfig).sum :=
    mul_le_of_le_one_left (List.sum_nonneg hnonneg) hlt.le
  have hweights : weights registry circuits abConfig ≠ [] := fun h => hne (List.map_eq_nil_iff.mp h)
  obtain ⟨i, hi⟩ := exists_pick hweights hroll
  have hlength := ((pick_eq_some_iff hnonneg).mp hi).lt
  rw [weights, List.length_map] at hlength
  exact ⟨i, _, List.getElem?_eq_getElem hlength, hi⟩

theorem names_sublist : ((availableVariants registry circuits abConfig).map fun v => v.2.1).Sublist
    (abConfig.map Prod.fst) := by
  induction abConfig with
  | nil => exact List.Sublist.refl _
  | cons entry abConfig ih =>
    rw [availableVariants, List.filterMap_cons]
    cases hcandidate : openCandidate registry circuits entry.1 with
    | none => exact ih.cons _
    | some candidate =>
      obtain ⟨hname, -⟩ := openCandidate_eq_some_iff.mp hcandidate
      rw [List.map_cons, ← hname]
      exact ih.cons_cons _

/-- Two variants of one selection are the same variant. -/
theorem index_unique (hnodup : (abConfig.map Prod.fst).Nodup) {j : ℕ}
    {other : ℚ × String × ResolvedModel}
    (hi : (availableVariants registry circuits abConfig)[i]? = some variant)
    (hj : (availableVariants registry circuits abConfig)[j]? = some other)
    (h : selectionOf registry circuits abConfig variant =
      selectionOf registry circuits abConfig other) : i = j := by
  have hnames : ((availableVariants registry circuits abConfig).map fun v => v.2.1).Nodup :=
    names_sublist.nodup hnodup
  have hlength : i < ((availableVariants registry circuits abConfig).map fun v => v.2.1).length :=
    by simpa using (List.getElem?_eq_some_iff.mp hi).1
  refine (List.getElem?_inj hlength hnames).mp ?_
  rw [List.getElem?_map, List.getElem?_map, hi, hj]
  exact congrArg some (congrArg AbSelection.model h)

end Shares

/-- The traffic splits in proportion to the weights of the variants that are available. -/
theorem selectAbVariant_splits (registry : ModelRegistry) (circuits : String → CircuitKey)
    (stats : String → ProviderStats) (abConfig : AbConfig) (h : Returned abConfig) :
    Splits registry circuits stats abConfig where
  none_iff _ := select_eq_none_iff.trans availableVariants_eq_nil_iff
  available r hr hlt hsome := by
    obtain ⟨i, variant, hvariant, hpick⟩ :=
      exists_selected h.weight_pos hlt fun hnil => hsome (select_eq_none_iff.mpr hnil)
    exact ⟨variant, List.mem_of_getElem? hvariant, select_of_pick h.nodup hvariant hpick⟩
  chosen_iff r hr hlt i variant hvariant := by
    rw [mem_share_iff h.weight_pos hr hlt]
    refine ⟨fun hselect => ?_, select_of_pick h.nodup hvariant⟩
    have hne : availableVariants registry circuits abConfig ≠ [] :=
      List.ne_nil_of_mem (List.mem_of_getElem? hvariant)
    -- the roll finds some variant, and the one that is selected has its index
    obtain ⟨j, other, hother, hpick⟩ := exists_selected h.weight_pos hlt hne
    have hsame := (select_of_pick h.nodup hother hpick).symm.trans hselect
    have hindex := index_unique h.nodup hother hvariant
      (Option.some.inj (Except.ok.inj hsame))
    rwa [← hindex]
  measure i variant hvariant := by
    have hreal : (realWeights registry circuits abConfig)[i]? = some (variant.1 : ℝ) := by
      rw [realWeights, weights, List.getElem?_map, List.getElem?_map, hvariant]
      rfl
    obtain ⟨hi, hweight⟩ := List.getElem?_eq_some_iff.mp hreal
    have hpos : ∀ w ∈ realWeights registry circuits abConfig, 0 < w := realWeights_pos h.weight_pos
    have hsum : 0 < (realWeights registry circuits abConfig).sum :=
      List.sum_pos _ hpos (List.ne_nil_of_length_pos (Nat.zero_lt_of_lt hi))
    rw [volume_share (fun w hw => (hpos w hw).le) hsum hi, hweight, sum_realWeights, Rat.cast_div]

/-! ### Seven requests in ten -/

def sevenToThree : AbConfig := [("gpt-4o", 7 / 10), ("gpt-4o-mini", 3 / 10)]

def storedVariants : List (JsString × Json) :=
  sevenToThree.map fun variant => (utf16 variant.1, .number variant.2)

theorem ownEntries_storedVariants : ownEntries storedVariants = storedVariants := by
  have hkeys : ∀ key ∈ storedVariants.map Prod.fst, arrayIndex key = none := by decide +kernel
  have hnames : ∀ entry ∈ storedVariants, isArrayIndex entry = false := by
    intro entry hentry
    rw [isArrayIndex, hkeys _ (List.mem_map_of_mem hentry), Option.isSome_none]
  rw [ownEntries, List.filter_eq_nil_iff.mpr fun e he => by simp [hnames e he],
    List.filter_eq_self.mpr fun e he => by simp [hnames e he]]
  rfl

theorem coerceAbConfig_storedVariants :
    coerceAbConfig (some (.object storedVariants)) = some storedVariants := by
  have hvariants : ∀ entry ∈ storedVariants, isVariant entry = true := by
    intro entry hentry
    obtain ⟨variant, hvariant, rfl⟩ := List.mem_map.mp hentry
    rcases List.mem_pair.mp hvariant with rfl | rfl
    · decide +kernel
    · decide +kernel
  rw [coerceAbConfig, ownEntries_storedVariants, List.filter_eq_self.mpr hvariants]
  rfl

theorem selectAbVariant_splits_sevenToThree :
    Splits (buildRegistry "gpt-4o" false) (fun _ => .missing) (fun _ => ⟨0, 0, 0, 0, 0⟩)
      sevenToThree :=
  selectAbVariant_splits _ _ _ _
    ⟨_, _, coerceAbConfig_storedVariants, ownEntries_storedVariants⟩

end CloudMesh.AbSplit
