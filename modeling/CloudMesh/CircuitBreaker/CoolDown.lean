import CloudMesh.CircuitBreaker.HalfOpen

/-!
# The cool-down of an open circuit

An open circuit refuses calls until `openDurationMs` after `openedAt`. The report that opens it
writes the start of the failing call there, not the time of the report, and so does every failure
that is reported while the circuit is open. The cool-down counted from the opening is kept in the
runs whose reports do not write an earlier time than that.
-/

namespace CloudMesh.CircuitBreaker

open Concurrent

/-- The circuit becomes open by a report, or is forced open. -/
def BecomesOpen (name : String) (w w' : BreakerWorld) : Action sig Pid ℕ Op → Prop
  | .command ⟨_, .evalReport n .., _⟩ => n = name ∧ (w.shared.circuits name).state ≠ .opened ∧
      (w'.shared.circuits name).state = .opened
  | .command ⟨_, .hset n _, _⟩ => n = name
  | _ => False

/-- The step does not reset the circuit. -/
def NoReset (name : String) (_ : BreakerWorld) : Action sig Pid ℕ Op → Prop
  | .command ⟨_, .del n, _⟩ => n ≠ name
  | _ => True

/-- A failure report that writes `openedAt` writes the clock, or, in a circuit that is open and
cooling down, no earlier time than is stored; a forced open writes the clock; and the key does not
expire during the cool-down. -/
def CoolDownKept (config : CircuitBreakerConfig) (name : String) (w : BreakerWorld) :
    Action sig Pid ℕ Op → Prop
  | .command ⟨_, .evalReport n now success _, _⟩ =>
    n = name → success = false → Trips config (w.shared.circuits name) →
      if (w.shared.circuits name).state = .opened then
        w.shared.clock < (w.shared.circuits name).openedAt + config.openDurationMs →
          (w.shared.circuits name).openedAt ≤ now
      else w.shared.clock ≤ now
  | .command ⟨_, .hset n fields, _⟩ => n = name → w.shared.clock ≤ fields.openedAt.getD 0
  | .drift d => (w.shared.circuits name).state = .opened →
      w.shared.clock + d < (w.shared.circuits name).openedAt + config.openDurationMs →
        (w.shared.circuits name).purge (w.shared.clock + d) = w.shared.circuits name
  | _ => True

instance (name : String) (w : BreakerWorld) :
    (a : Action sig Pid ℕ Op) → Decidable (NoReset name w a)
  | .command ⟨_, .del n, _⟩ => inferInstanceAs (Decidable (n ≠ name))
  | .command ⟨_, .dateNow, _⟩ | .command ⟨_, .evalAttempt .., _⟩ | .command ⟨_, .evalReport .., _⟩
  | .command ⟨_, .hset .., _⟩ | .command ⟨_, .expire _, _⟩ | .command ⟨_, .fn, _⟩
  | .start .. | .drift _ => isTrue trivial

instance (config : CircuitBreakerConfig) (name : String) (w : BreakerWorld) :
    (a : Action sig Pid ℕ Op) → Decidable (CoolDownKept config name w a)
  | .command ⟨_, .evalReport n _ success _, _⟩ =>
    inferInstanceAs (Decidable (n = name → success = false → Trips _ _ → ite _ _ _))
  | .command ⟨_, .hset n _, _⟩ => inferInstanceAs (Decidable (n = name → _ ≤ _))
  | .command ⟨_, .dateNow, _⟩ | .command ⟨_, .evalAttempt .., _⟩ | .command ⟨_, .del .., _⟩
  | .command ⟨_, .expire _, _⟩ | .command ⟨_, .fn, _⟩ | .start .. => isTrue trivial
  | .drift _ => inferInstanceAs (Decidable (_ = _ → _ < _ → _ = _))

/-- The cool-down that began at `T` is being kept. -/
def Cooling (config : CircuitBreakerConfig) (name : String) (T : ℤ) (w : BreakerWorld) : Prop :=
  w.shared.clock < T + config.openDurationMs →
    (w.shared.circuits name).state = .opened ∧ T ≤ (w.shared.circuits name).openedAt

variable {config : String → CircuitBreakerConfig} {name : String} {T : ℤ}
  {c d : BreakerConfig} {a : Action sig Pid ℕ Op}

/-- An attempt within the cool-down is refused and changes nothing. -/
theorem refused_of_cooling {cfg : CircuitBreakerConfig} {clock now : ℤ} {key key' : CircuitKey}
    {answer : Bool × CircuitState} (h : Attempted cfg now key answer key') (hnow : now ≤ clock)
    (hclock : clock < T + cfg.openDurationMs) (hs : key.state = .opened) (hT : T ≤ key.openedAt) :
    answer.1 = false ∧ key' = key := by
  cases h with
  | closed h => simp [hs] at h
  | refused => exact ⟨rfl, rfl⟩
  | probe h =>
    rcases h with ⟨-, h⟩ | ⟨h, -⟩
    · omega
    · simp [hs] at h

theorem cooling_report {cfg : CircuitBreakerConfig} {clock now : ℤ} {key key' : CircuitKey}
    {success : Bool} (h : Reported cfg now key success key')
    (hclock : clock < T + cfg.openDurationMs) (hs : key.state = .opened) (hT : T ≤ key.openedAt)
    (hk : success = false → Trips cfg key →
      clock < key.openedAt + cfg.openDurationMs → key.openedAt ≤ now) :
    key'.state = .opened ∧ T ≤ key'.openedAt := by
  cases h with
  | recovered h => simp [hs] at h
  | tripped h h' ho => exact ⟨h', ho ▸ hT.trans (hk rfl h (by omega))⟩
  | counted h h' ho => exact ⟨h'.trans hs, ho ▸ hT⟩

theorem cooling_step (hconf : System.Conforms (Rule config) AllReported c)
    (hread : ClockRead c.world) (hi : Cooling (config name) name T c.world)
    (hr : NoReset name c.world a)
    (hk : CoolDownKept (config name) name c.world a) (hT : T ≤ c.world.shared.clock)
    (h : (breaker config).Steps c a d) : Cooling (config name) name T d.world := by
  have ht := touches_of_steps name hconf h
  intro hclock
  cases h with
  | start => exact hi hclock
  | @drift n s hx =>
    cases hx
    have hnow : c.world.shared.clock + n < T + (config name).openDurationMs := hclock
    obtain ⟨hs, ho⟩ := hi (by omega)
    have hkey : (c.world.shared.tick n).circuits name = c.world.shared.circuits name :=
      hk hs (by omega)
    exact ⟨hkey ▸ hs, hkey ▸ ho⟩
  | @command p i P cmd k r s hp hprog hx =>
    have hsame : s.clock = c.world.shared.clock := exec_clock p hx
    have hnow : c.world.shared.clock < T + (config name).openDurationMs := hsame ▸ hclock
    obtain ⟨hs, ho⟩ := hi hnow
    show (s.circuits name).state = .opened ∧ T ≤ (s.circuits name).openedAt
    generalize hkey : (c.world.after ⟨p, cmd, r⟩ s).shared.circuits name = key at ht
    have hkey : s.circuits name = key := hkey
    rw [hkey]
    cases ht with
    | attempt hfirst h =>
      have hle := hread p _ (mem_transcript.mp (hfirst ▸ List.mem_cons_self))
      obtain ⟨-, rfl⟩ := refused_of_cooling h hle hnow hs ho
      exact ⟨hs, ho⟩
    | report hadm hfn h =>
      refine cooling_report h hnow hs ho fun hsuccess htrips => ?_
      have hkept := hk rfl hsuccess htrips
      rwa [if_pos hs] at hkept
    | force =>
      have hkept : c.world.shared.clock ≤ _ := hk rfl
      exact ⟨by simp [forceOpenFields], by simpa [forceOpenFields] using hT.trans hkept⟩
    | reset => exact absurd rfl hr
    | expire => exact ⟨by simpa using hs, by simpa using ho⟩
    | elsewhere => exact ⟨hs, ho⟩

/-- The step that opens the circuit starts the cool-down. -/
theorem cooling_of_becomesOpen (hconf : System.Conforms (Rule config) AllReported c)
    (ho : BecomesOpen name c.world d.world a) (hk : CoolDownKept (config name) name c.world a)
    (h : (breaker config).Steps c a d) :
    Cooling (config name) name c.world.shared.clock d.world := by
  have ht := touches_of_steps name hconf h
  intro _
  cases h with
  | start | drift => exact ho.elim
  | @command p i P cmd k r s hp hprog hx =>
    show (s.circuits name).state = .opened ∧ _ ≤ (s.circuits name).openedAt
    generalize hkey : (c.world.after ⟨p, cmd, r⟩ s).shared.circuits name = key at ht
    have hs : s.circuits name = key := hkey
    cases ht with
    | attempt | reset | expire => exact ho.elim
    | report hadm hfn h =>
      obtain ⟨-, hnot, hopen⟩ := ho
      rw [World.after_shared, hs] at hopen
      rw [hs]
      cases h with
      | recovered h h' => simp [h'] at hopen
      | counted h h' => exact absurd (h'.symm.trans hopen) hnot
      | tripped h h' ho =>
        have hkept := hk rfl rfl h
        rw [if_neg hnot] at hkept
        exact ⟨h', ho ▸ hkept⟩
    | force =>
      have hkept : c.world.shared.clock ≤ _ := hk rfl
      rw [hs]
      exact ⟨by simp [forceOpenFields], by simpa [forceOpenFields] using hkept⟩
    | elsewhere hon =>
      cases cmd with
      | evalReport => exact absurd ho.1 hon
      | hset => exact absurd ho hon
      | dateNow | evalAttempt | expire | del | fn => exact ho.elim

/-- If the circuit becomes open at a clock `T` in a run that keeps its cool-downs, every attempt
before `T + openDurationMs` is refused. -/
theorem closed_to_traffic_of_coolDownKept (config : String → CircuitBreakerConfig) (name : String)
    (pre mid : List BreakerLabel)
    (l l' : BreakerLabel)
    (c d e f : BreakerConfig) (a : Action sig Pid ℕ Op) (q : Pid)
    (now : ℤ) (answer : Bool × CircuitState)
    (hpre : (breaker config).run (.init .empty) pre = some c)
    (hl : (breaker config).next c l = some (a, d))
    (ho : BecomesOpen name c.world d.world a)
    (hmid : (breaker config).run d mid = some e)
    (hl' : (breaker config).next e l' =
      some (.command ⟨q, .evalAttempt name now (config name), answer⟩, f))
    (hcool : e.world.shared.clock < c.world.shared.clock + (config name).openDurationMs)
    (hr : (breaker config).Along (fun c => NoReset name c.world) (.init .empty) (pre ++ l :: mid))
    (hk : (breaker config).Along (fun c => CoolDownKept (config name) name c.world) (.init .empty)
      (pre ++ l :: mid)) : answer.1 = false := by
  obtain ⟨⟨-, hka⟩, hrmid, hkmid⟩ : (NoReset name c.world a ∧ CoolDownKept (config name) name
      c.world a) ∧ (breaker config).Along (fun c => NoReset name c.world) d mid ∧
        (breaker config).Along (fun c => CoolDownKept (config name) name c.world) d mid := by
    have ⟨hra, hrmid⟩ := ((System.along_append hpre).mp hr).2 a d hl
    have ⟨hka, hkmid⟩ := ((System.along_append hpre).mp hk).2 a d hl
    exact ⟨⟨hra, hka⟩, hrmid, hkmid⟩
  have hc := System.conforms_run (obeys config) hpre
  have hstep := System.steps_of_next hl
  have hread : ClockRead c.world :=
    System.invariant_run (obeys config) (fun _ _ _ _ hi _ hst => clockRead_step hi hst)
      (System.conforms_init _) (fun _ _ h => nomatch h) hpre
      (System.along_of_forall (fun _ _ => trivial) _ _)
  let I (x : BreakerConfig) : Prop := ClockRead x.world ∧
    Cooling (config name) name c.world.shared.clock x.world ∧
      c.world.shared.clock ≤ x.world.shared.clock
  have hI : I e := by
    refine System.invariant_run (obeys config) (fun x b y hx hi hb hxy => ?_)
      (hc.step (obeys config)
      hstep) ⟨clockRead_step hread hstep, cooling_of_becomesOpen hc ho hka hstep,
        clock_le_of_steps hstep⟩ hmid (hrmid.and hkmid)
    obtain ⟨hread, hi, hT⟩ := hi
    exact ⟨clockRead_step hread hxy, cooling_step hx hread hi hb.1 hb.2 hT hxy,
      hT.trans (clock_le_of_steps hxy)⟩
  obtain ⟨hread, hi, -⟩ := hI
  obtain ⟨hs, hopened⟩ := hi hcool
  have hconf := System.conforms_run (obeys config)
    (System.run_append.mpr ⟨c, hpre, System.run_cons.mpr ⟨a, d, hl, hmid⟩⟩)
  have ht := touches_of_steps name hconf (System.steps_of_next hl')
  generalize f.world.shared.circuits name = key at ht
  cases ht with
  | attempt hfirst h =>
    have hle := hread q now (mem_transcript.mp (hfirst ▸ List.mem_cons_self))
    exact (refused_of_cooling h hle hcool hs hopened).1
  | elsewhere hon => exact absurd rfl hon

/-- Call 0 fails in no time and opens the circuit at 0; call 1 comes 29999 ms later. -/
theorem closed_to_traffic_of_coolDownKept_instant : ∃ e f answer,
    (breaker fun _ => oneFailure).run (.init .empty) (attemptLabels "openai" 0 ++ failLabels 0 ++
      [.drift 29999, .start 1 (.withCircuitBreaker "openai"), .step 1 (.ok ())]) = some e ∧
    (breaker fun _ => oneFailure).next e (.step 1 (.ok ())) =
      some (.command ⟨1, .evalAttempt "openai" 29999 oneFailure, answer⟩, f) ∧
    answer.1 = false := by
  let sys := breaker fun _ => oneFailure
  let pre := attemptLabels "openai" 0 ++ [.step 0 (.error (.error "fetch failed"))]
  let mid : List BreakerLabel :=
    [.drift 29999, .start 1 (.withCircuitBreaker "openai"), .step 1 (.ok ())]
  have hc : (sys.run (.init .empty) pre).isSome := by decide
  let c := (sys.run (.init .empty) pre).get hc
  have hd : (sys.next c (.step 0 (.ok ()))).isSome := rfl
  let d := ((sys.next c (.step 0 (.ok ()))).get hd).2
  have he : (sys.run d mid).isSome := rfl
  let e := (sys.run d mid).get he
  have hf : (sys.next e (.step 1 (.ok ()))).isSome := rfl
  let f := ((sys.next e (.step 1 (.ok ()))).get hf).2
  have hatt : sys.next e (.step 1 (.ok ())) =
      some (.command ⟨1, .evalAttempt "openai" 29999 oneFailure, (false, .opened)⟩, f) := rfl
  refine ⟨e, f, (false, .opened), rfl, hatt, ?_⟩
  exact closed_to_traffic_of_coolDownKept (fun _ => oneFailure) "openai" pre mid
    (.step 0 (.ok ())) (.step 1 (.ok ())) c d e f
    (.command ⟨0, .evalReport "openai" 0 false oneFailure, CircuitState.opened⟩) 1 29999
    (false, .opened) rfl rfl ⟨rfl, nofun, rfl⟩ rfl hatt
    (show (29999 : ℤ) < 0 + (30000 : ℕ) by decide) (by decide) (by decide)

/-- Call 0 runs for 30000 ms and opens the circuit at 30000; call 1 is let through at once. -/
theorem closed_to_traffic_fails : ¬∀ config name pre mid l l' c d e f a q now answer,
    (breaker config).run (.init .empty) pre = some c →
    (breaker config).next c l = some (a, d) → BecomesOpen name c.world d.world a →
    (breaker config).run d mid = some e →
    (breaker config).next e l' =
      some (.command ⟨q, .evalAttempt name now (config name), answer⟩, f) →
    e.world.shared.clock < c.world.shared.clock + (config name).openDurationMs →
    (breaker config).Along (fun c => NoReset name c.world) (.init .empty) (pre ++ l :: mid) →
      answer.1 = false := by
  intro h
  let sys := breaker fun _ => oneFailure
  let pre := attemptLabels "openai" 0 ++ [.drift 30000, .step 0 (.error (.error "fetch failed"))]
  let mid : List BreakerLabel :=
    [.start 1 (.withCircuitBreaker "openai"), .step 1 (.ok ())]
  have hc : (sys.run (.init .empty) pre).isSome := by decide
  let c := (sys.run (.init .empty) pre).get hc
  have hd : (sys.next c (.step 0 (.ok ()))).isSome := rfl
  let d := ((sys.next c (.step 0 (.ok ()))).get hd).2
  have he : (sys.run d mid).isSome := rfl
  let e := (sys.run d mid).get he
  have hf : (sys.next e (.step 1 (.ok ()))).isSome := rfl
  let f := ((sys.next e (.step 1 (.ok ()))).get hf).2
  have hrefused := h (fun _ => oneFailure) "openai" pre mid (.step 0 (.ok ())) (.step 1 (.ok ()))
    c d e f (.command ⟨0, .evalReport "openai" 0 false oneFailure, CircuitState.opened⟩) 1 30000
    (true, .halfOpen) rfl rfl ⟨rfl, nofun, rfl⟩ rfl rfl
    (show (30000 : ℤ) < 30000 + (30000 : ℕ) by decide) (by decide)
  cases hrefused

end CloudMesh.CircuitBreaker
