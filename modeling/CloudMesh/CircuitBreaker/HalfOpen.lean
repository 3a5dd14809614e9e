import CloudMesh.CircuitBreaker.System

/-!
# The half-open probe

The attempt script claims the half-open slot atomically, so only one call takes it at a time. The
slot is lost, though, when the report of a call that was admitted earlier finds the circuit
half-open: nothing ties a report to the call that holds the slot. The probe is exclusive in the
runs without such a report. In all runs a claimed slot belongs to a call that has not been reported
yet, and every report gives the slot up.
-/

namespace CloudMesh.CircuitBreaker

open Concurrent

/-- The `fn` of a call that was admitted as a probe is not finished. -/
def OpenProbe (name : String) (p : Pid) (h : List BreakerEvent) : Prop :=
  (∃ now config, Admitted name now config .halfOpen p h) ∧ ∀ r, ⟨p, .fn, r⟩ ∉ h

/-- The event lets a call through. -/
def Admits (name : String) (e : BreakerEvent) : Prop :=
  ∃ p now config state, e = ⟨p, .evalAttempt name now config, (true, state)⟩

/-- At every moment of the history there is at most one open probe, and no call is admitted while
there is one. -/
def HalfOpenExclusive (name : String) : List BreakerEvent → Prop
  | [] => True
  | e :: h => (∀ p q, OpenProbe name p (e :: h) → OpenProbe name q (e :: h) → p = q) ∧
      (Admits name e → ∀ p, ¬OpenProbe name p h) ∧ HalfOpenExclusive name h

/-- The step is no forced open, no reset and no expiry of the circuit. -/
def Undisturbed (name : String) (w : BreakerWorld) : Action sig Pid ℕ Op → Prop
  | .command ⟨_, .hset n _, _⟩ | .command ⟨_, .del n, _⟩ => n ≠ name
  | .drift d => (w.shared.circuits name).purge (w.shared.clock + d) = w.shared.circuits name
  | _ => True

instance (name : String) (w : BreakerWorld) :
    (a : Action sig Pid ℕ Op) → Decidable (Undisturbed name w a)
  | .command ⟨_, .hset n _, _⟩ | .command ⟨_, .del n, _⟩ => inferInstanceAs (Decidable (n ≠ name))
  | .command ⟨_, .dateNow, _⟩ | .command ⟨_, .evalAttempt .., _⟩ | .command ⟨_, .evalReport .., _⟩
  | .command ⟨_, .expire _, _⟩ | .command ⟨_, .fn, _⟩ | .start .. => isTrue trivial
  | .drift _ => inferInstanceAs (Decidable (_ = _))

/-- The step does not report a call in state half-open while the `fn` of a probe is running. -/
def ProbeUndisturbed (name : String) (w : BreakerWorld) : Action sig Pid ℕ Op → Prop
  | .command ⟨_, .evalReport n .., _⟩ => n = name → (w.shared.circuits name).state = .halfOpen →
      ∀ p, ¬OpenProbe name p w.history
  | _ => True

/-- While there is an open probe the slot is claimed. -/
structure SlotClaimed (name : String) (w : BreakerWorld) : Prop where
  slot : ∀ p, OpenProbe name p w.history → (w.shared.circuits name).state = .halfOpen ∧
    (w.shared.circuits name).hash.probeTaken = some "1"
  unique : ∀ p q, OpenProbe name p w.history → OpenProbe name q w.history → p = q
  exclusive : HalfOpenExclusive name w.history

section OpenProbes

variable {name : String} {p : Pid} {h : List BreakerEvent}

/-- The call that the event admits as a probe. -/
def probeOf (name : String) : BreakerEvent → Option Pid
  | ⟨p, .evalAttempt n _ _, (true, .halfOpen)⟩ => if n = name then some p else none
  | _ => none

def ranFn (p : Pid) : BreakerEvent → Bool
  | ⟨q, .fn, _⟩ => q = p
  | _ => false

def openProbes (name : String) (h : List BreakerEvent) : List Pid :=
  (h.filterMap (probeOf name)).filter fun p => !h.any (ranFn p)

theorem probeOf_eq_some {e : BreakerEvent} : probeOf name e = some p ↔
    ∃ now config, e = ⟨p, .evalAttempt name now config, (true, .halfOpen)⟩ := by
  unfold probeOf
  split
  · next q n now config =>
    simp only [Option.ite_none_right_eq_some, Option.some.injEq]
    constructor
    · rintro ⟨rfl, rfl⟩
      exact ⟨now, config, rfl⟩
    · rintro ⟨now', config', he⟩
      cases he
      exact ⟨rfl, rfl⟩
  · next hne =>
    simp only [reduceCtorEq, false_iff, not_exists]
    rintro now config rfl
    exact hne p name now config rfl

theorem any_ranFn : h.any (ranFn p) = true ↔ ∃ r, (⟨p, .fn, r⟩ : BreakerEvent) ∈ h := by
  rw [List.any_eq_true]
  constructor
  · rintro ⟨e, he, hr⟩
    unfold ranFn at hr
    split at hr
    · next q r =>
      obtain rfl := of_decide_eq_true hr
      exact ⟨r, he⟩
    · cases hr
  · rintro ⟨r, hr⟩
    exact ⟨_, hr, by simp [ranFn]⟩

theorem mem_openProbes : p ∈ openProbes name h ↔ OpenProbe name p h := by
  simp only [openProbes, List.mem_filter, List.mem_filterMap, probeOf_eq_some, OpenProbe, Admitted,
    Bool.not_eq_true', Bool.eq_false_iff, ne_eq, any_ranFn, not_exists]
  refine and_congr_left fun _ => ⟨?_, ?_⟩
  · rintro ⟨e, he, now, config, rfl⟩
    exact ⟨now, config, he⟩
  · rintro ⟨now, config, he⟩
    exact ⟨_, he, now, config, rfl⟩

instance : Decidable (∀ p, ¬OpenProbe name p h) :=
  decidable_of_iff (openProbes name h = [])
    (by simp [List.eq_nil_iff_forall_not_mem, mem_openProbes])

instance (w : BreakerWorld) : (a : Action sig Pid ℕ Op) → Decidable (ProbeUndisturbed name w a)
  | .command ⟨_, .evalReport n .., _⟩ => inferInstanceAs (Decidable (n = name → _ → _))
  | .command ⟨_, .dateNow, _⟩ | .command ⟨_, .evalAttempt .., _⟩ | .command ⟨_, .hset .., _⟩
  | .command ⟨_, .expire _, _⟩ | .command ⟨_, .del _, _⟩ | .command ⟨_, .fn, _⟩
  | .start .. | .drift _ => isTrue trivial

end OpenProbes

section Events

variable {name : String} {w : BreakerWorld} {e : BreakerEvent} {s : Store}

/-- A new open probe has just been admitted. -/
theorem OpenProbe.of_cons {p : Pid} {h : List BreakerEvent} (ho : OpenProbe name p (e :: h)) :
    OpenProbe name p h ∨
      ∃ now config, e = ⟨p, .evalAttempt name now config, (true, .halfOpen)⟩ := by
  obtain ⟨⟨now, config, ha⟩, hfn⟩ := ho
  rcases List.mem_cons.mp ha with he | ha
  · exact .inr ⟨now, config, he.symm⟩
  · exact .inl ⟨⟨now, config, ha⟩, fun r hr => hfn r (List.mem_cons_of_mem _ hr)⟩

/-- An event that admits no call keeps the invariant if it keeps the claimed slot. -/
theorem SlotClaimed.command (hi : SlotClaimed name w) (he : ¬Admits name e)
    (hs : ∀ p, OpenProbe name p w.history → (s.circuits name).state = .halfOpen ∧
      (s.circuits name).hash.probeTaken = some "1") : SlotClaimed name (w.after e s) := by
  have hback : ∀ p, OpenProbe name p (e :: w.history) → OpenProbe name p w.history := by
    intro p hp
    refine hp.of_cons.resolve_right ?_
    rintro ⟨now, config, rfl⟩
    exact he ⟨p, now, config, .halfOpen, rfl⟩
  have hunique : ∀ p q, OpenProbe name p (e :: w.history) → OpenProbe name q (e :: w.history) →
      p = q := fun p q hp hq => hi.unique p q (hback p hp) (hback q hq)
  exact ⟨fun p hp => hs p (hback p hp), hunique, hunique, fun h => absurd h he, hi.exclusive⟩

/-- A call that is admitted while there is no open probe keeps the invariant. -/
theorem SlotClaimed.admit (hi : SlotClaimed name w) (hnone : ∀ p, ¬OpenProbe name p w.history)
    (hs : ∀ p now config, e = ⟨p, .evalAttempt name now config, (true, .halfOpen)⟩ →
      (s.circuits name).state = .halfOpen ∧ (s.circuits name).hash.probeTaken = some "1") :
    SlotClaimed name (w.after e s) := by
  have hnew : ∀ p, OpenProbe name p (e :: w.history) →
      ∃ now config, e = ⟨p, .evalAttempt name now config, (true, .halfOpen)⟩ :=
    fun p hp => hp.of_cons.resolve_left (hnone p)
  have hunique : ∀ p q, OpenProbe name p (e :: w.history) → OpenProbe name q (e :: w.history) →
      p = q := by
    intro p q hp hq
    obtain ⟨_, _, hep⟩ := hnew p hp
    obtain ⟨_, _, heq⟩ := hnew q hq
    exact congrArg Event.pid (hep.symm.trans heq)
  refine ⟨fun p hp => ?_, hunique, hunique, fun _ => hnone, hi.exclusive⟩
  obtain ⟨now, config, he⟩ := hnew p hp
  exact hs p now config he

end Events

variable {config : String → CircuitBreakerConfig} {name : String}
  {c d : BreakerConfig} {a : Action sig Pid ℕ Op}
  {ls : List BreakerLabel}

/-- Only the attempts that find the slot free admit a call. -/
theorem slotClaimed_attempt {w : BreakerWorld} {s : Store} {p : Pid} {now : ℤ}
    {answer : Bool × CircuitState} (hi : SlotClaimed name w)
    (h : Attempted (config name) now (w.shared.circuits name) answer (s.circuits name)) :
    SlotClaimed name (w.after ⟨p, .evalAttempt name now (config name), answer⟩ s) := by
  generalize hkey : s.circuits name = key at h
  cases h with
  | closed h h' =>
    refine hi.admit (fun q hq => ?_) (fun q _ _ he => by cases he)
    simp [(hi.slot q hq).1] at h
  | probe h h' hp =>
    refine hi.admit (fun q hq => ?_) (fun _ _ _ _ => by rw [hkey]; exact ⟨h', hp⟩)
    obtain ⟨hstate, htaken⟩ := hi.slot q hq
    simp [hstate, htaken] at h
  | refused hs h =>
    refine hi.command ?_ (fun q hq => by rw [hkey]; exact hi.slot q hq)
    rintro ⟨_, _, _, _, he⟩
    cases he

theorem slotClaimed_step (hconf : System.Conforms (Rule config) AllReported c)
    (hi : SlotClaimed name c.world) (hu : Undisturbed name c.world a)
    (hp : ProbeUndisturbed name c.world a) (h : (breaker config).Steps c a d) :
    SlotClaimed name d.world := by
  have ht := touches_of_steps name hconf h
  cases h with
  | start => exact hi
  | drift hx =>
    cases hx
    refine ⟨fun p ho => ?_, hi.unique, hi.exclusive⟩
    rw [show (c.world.shared.tick _).circuits name = c.world.shared.circuits name from hu]
    exact hi.slot p ho
  | @command p i P cmd k r s =>
    generalize hkey : (c.world.after ⟨p, cmd, r⟩ s).shared.circuits name = key at ht
    cases ht with
    | attempt hfirst h => subst hkey; exact slotClaimed_attempt hi h
    | report hadm hfn h =>
      have hnone : (c.world.shared.circuits name).state = .halfOpen →
        ∀ q, ¬OpenProbe name q c.world.history := hp rfl
      refine hi.command ?_ fun q hq => absurd hq (hnone (hi.slot q hq).1 q)
      rintro ⟨_, _, _, _, he⟩
      cases he
    | force => exact absurd rfl hu
    | reset => exact absurd rfl hu
    | expire =>
      refine hi.command ?_ fun q hq => ?_
      · rintro ⟨_, _, _, _, he⟩
        cases he
      · have hslot := hi.slot q hq
        simpa [CircuitKey.state, show s.circuits name = _ from hkey] using hslot
    | elsewhere hon =>
      refine hi.command ?_ fun q hq => (show s.circuits name = _ from hkey) ▸ hi.slot q hq
      rintro ⟨_, _, _, _, he⟩
      cases he
      exact hon rfl

theorem slotClaimed_init : SlotClaimed name ⟨.empty, []⟩ :=
  ⟨fun _ hp => absurd hp.1 (by simp [Admitted]), fun _ _ hp => absurd hp.1 (by simp [Admitted]),
    trivial⟩

/-- If no call is reported in state half-open while a probe is running, then the probe is alone. -/
theorem halfOpenExclusive_of_probeUndisturbed (config : String → CircuitBreakerConfig)
    (name : String) (ls : List BreakerLabel)
    (c : BreakerConfig)
    (hrun : (breaker config).run (.init .empty) ls = some c)
    (hu : (breaker config).Along (fun c => Undisturbed name c.world) (.init .empty) ls)
    (hp : (breaker config).Along (fun c => ProbeUndisturbed name c.world) (.init .empty) ls) :
    HalfOpenExclusive name c.world.history := by
  have hclaimed : SlotClaimed name c.world :=
    System.invariant_run (obeys config)
      (fun _ _ _ hconf hi ha hstep => slotClaimed_step hconf hi ha.1 ha.2 hstep)
      (System.conforms_init _) slotClaimed_init hrun (hu.and hp)
  exact hclaimed.exclusive

/-- The labels by which `p` starts a call on `name` and is let through or refused. -/
def attemptLabels (name : String) (p : Pid) : List BreakerLabel :=
  [.start p (.withCircuitBreaker name), .step p (.ok ()), .step p (.ok ())]

/-- The labels by which the `fn` of `p` fails and the failure is reported. -/
def failLabels (p : Pid) : List BreakerLabel :=
  [.step p (.error (.error "fetch failed")), .step p (.ok ())]

def oneFailure : CircuitBreakerConfig := ⟨1, 60000, 30000⟩

/-- Trip the circuit, wait, and let call 1 through as the probe. -/
def probeRun : List BreakerLabel :=
  attemptLabels "openai" 0 ++ failLabels 0 ++ [.drift 30000] ++ attemptLabels "openai" 1

/-- Calls 0 and 1 are admitted while the circuit is closed, 0 fails and opens it, 2 becomes the
probe, 1 fails and opens it again with its own, old `now`, and 3 becomes a probe beside 2. -/
def staleReport : List BreakerLabel :=
  attemptLabels "openai" 0 ++ attemptLabels "openai" 1 ++ failLabels 0 ++ [.drift 30000] ++
    attemptLabels "openai" 2 ++ failLabels 1 ++ attemptLabels "openai" 3

theorem halfOpenExclusive_of_probeUndisturbed_probe : ∃ c,
    (breaker fun _ => oneFailure).run (.init .empty) probeRun = some c ∧
      HalfOpenExclusive "openai" c.world.history := by
  have hsome : ((breaker fun _ => oneFailure).run (.init .empty) probeRun).isSome := by decide
  obtain ⟨c, hc⟩ := Option.isSome_iff_exists.mp hsome
  exact ⟨c, hc, halfOpenExclusive_of_probeUndisturbed _ "openai" probeRun c hc (by decide)
    (by decide)⟩

def staleReportHistory : List BreakerEvent :=
  [⟨3, .evalAttempt "openai" 30000 oneFailure, (true, .halfOpen)⟩, ⟨3, .dateNow, (30000 : ℤ)⟩,
    ⟨1, .evalReport "openai" 0 false oneFailure, CircuitState.opened⟩,
    ⟨1, .fn, (.error (.error "fetch failed") : Except Thrown Unit)⟩,
    ⟨2, .evalAttempt "openai" 30000 oneFailure, (true, .halfOpen)⟩, ⟨2, .dateNow, (30000 : ℤ)⟩,
    ⟨0, .evalReport "openai" 0 false oneFailure, CircuitState.opened⟩,
    ⟨0, .fn, (.error (.error "fetch failed") : Except Thrown Unit)⟩,
    ⟨1, .evalAttempt "openai" 0 oneFailure, (true, .closed)⟩, ⟨1, .dateNow, (0 : ℤ)⟩,
    ⟨0, .evalAttempt "openai" 0 oneFailure, (true, .closed)⟩, ⟨0, .dateNow, (0 : ℤ)⟩]

theorem halfOpenExclusive_fails : ¬∀ config name ls c,
    (breaker config).run (.init .empty) ls = some c →
      (breaker config).Along (fun c => Undisturbed name c.world) (.init .empty) ls →
        HalfOpenExclusive name c.world.history := by
  intro h
  have hrun : ((breaker fun _ => oneFailure).run (.init .empty) staleReport).map
      (·.world.history) = some staleReportHistory := rfl
  obtain ⟨c, hc, hhist⟩ := Option.map_eq_some_iff.mp hrun
  have hexcl := h (fun _ => oneFailure) "openai" staleReport c hc (by decide)
  rw [hhist] at hexcl
  have hopen : ∀ p, p = 2 ∨ p = 3 → OpenProbe "openai" p staleReportHistory := by
    rintro p (rfl | rfl) <;>
      exact ⟨⟨30000, oneFailure, by simp [Admitted, staleReportHistory]⟩,
        by simp [staleReportHistory]⟩
  exact absurd (hexcl.1 2 3 (hopen 2 (.inl rfl)) (hopen 3 (.inr rfl))) (by decide)

/-! ## The slot is always given up -/

/-- No `REPORT` of `p` on `name` has been executed. -/
def Unreported (name : String) (p : Pid) (h : List BreakerEvent) : Prop :=
  ∀ now success config r, ⟨p, .evalReport name now success config, r⟩ ∉ h

/-- A claimed slot belongs to a call that is not reported yet. -/
def SlotHeld (config : String → CircuitBreakerConfig) (name : String) (w : BreakerWorld) : Prop :=
  (w.shared.circuits name).state = .halfOpen →
    (w.shared.circuits name).hash.probeTaken = some "1" →
      ∃ p now, Admitted name now (config name) .halfOpen p w.history ∧
        Unreported name p w.history

theorem slotHeld_of_ne {w : BreakerWorld}
    (h : (w.shared.circuits name).state ≠ .halfOpen) : SlotHeld config name w :=
  fun hstate => absurd hstate h

theorem SlotHeld.command {w : BreakerWorld} {e : BreakerEvent} {s : Store}
    (hi : SlotHeld config name w)
    (he : ∀ p now success cfg r, e ≠ ⟨p, .evalReport name now success cfg, r⟩)
    (hs : (s.circuits name).hash = (w.shared.circuits name).hash) :
    SlotHeld config name (w.after e s) := by
  intro hstate htaken
  simp only [World.after_shared, CircuitKey.state, hs] at hstate htaken
  obtain ⟨p, now, ha, hr⟩ := hi hstate htaken
  refine ⟨p, now, List.mem_cons_of_mem _ ha, fun now success cfg r hmem => ?_⟩
  rcases List.mem_cons.mp hmem with h | h
  · exact he p now success cfg r h.symm
  · exact hr now success cfg r h

theorem slotHeld_step (hconf : System.Conforms (Rule config) AllReported c)
    (hi : SlotHeld config name c.world) (h : (breaker config).Steps c a d) :
    SlotHeld config name d.world := by
  have ht := touches_of_steps name hconf h
  cases h with
  | start => exact hi
  | @drift e s hx =>
    cases hx
    rcases purge_eq_missing_or (c.world.shared.circuits name) (c.world.shared.clock + e) with
      hkey | hkey
    · simpa [SlotHeld, Store.tick, hkey] using hi
    · simp [SlotHeld, Store.tick, hkey]
  | @command p i P cmd k r s =>
    generalize hkey : (c.world.after ⟨p, cmd, r⟩ s).shared.circuits name = key at ht
    have hs : s.circuits name = key := hkey
    cases ht with
    | attempt hfirst h =>
      cases h with
      | closed h h' => exact slotHeld_of_ne (by simp [hs, h'])
      | @probe key' =>
        -- the slot belongs to the call that has just taken it
        refine fun _ _ => ⟨p, _, List.mem_cons_self, fun now success cfg r hmem => ?_⟩
        rcases List.mem_cons.mp hmem with he | he
        · cases he
        · have hmem := mem_transcript.mpr he
          simp [hfirst] at hmem
      | refused => exact hi.command (fun _ _ _ _ _ heq => by cases heq) (by rw [hs])
    | report hadm hfn h =>
      refine slotHeld_of_ne ?_
      rw [World.after_shared, hs]
      cases h <;> simp_all
    | force => exact slotHeld_of_ne (by simp [hs, forceOpenFields])
    | reset => exact slotHeld_of_ne (by simp [hs])
    | expire => exact hi.command (fun _ _ _ _ _ heq => by cases heq) (by simp [hs])
    | elsewhere hon =>
      exact hi.command (fun _ _ _ _ _ he => hon (by cases he; rfl)) (by rw [hs])

/-- The process has started and not returned. -/
def InFlight (c : BreakerConfig) (p : Pid) : Prop :=
  ∃ P, c.procs p = some P ∧ ∀ r, P.prog ≠ .done r

theorem inFlight_of_unreported (hconf : System.Conforms (Rule config) AllReported c) {p : Pid}
    {now : ℤ} {state : CircuitState} (ha : Admitted name now (config name) state p c.world.history)
    (hr : Unreported name p c.world.history) : InFlight c p := by
  cases hp : c.procs p with
  | none =>
    exact absurd rfl (transcript_eq_nil.mp (hconf.fresh p hp) _ ha)
  | some P =>
    refine ⟨P, hp, fun r hdone => ?_⟩
    obtain ⟨success, answer, hrep⟩ :=
      hconf.result hp hdone name now _ state (mem_transcript.mpr ha)
    exact hr now success _ answer (mem_transcript.mp hrep)

end CloudMesh.CircuitBreaker
