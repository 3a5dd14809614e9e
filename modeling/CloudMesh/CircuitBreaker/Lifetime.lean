import CloudMesh.CircuitBreaker.HalfOpen

/-!
# The lifetime of a circuit's state

The hash of a circuit has a time to live, which its scripts renew and after which the circuit is
closed again. An open circuit therefore recovers in one of two ways: its hash outlives the
cool-down and the next call is the probe, or it does not and the next call finds a closed circuit.
With a claimed slot that belongs to a call in flight, no circuit refuses its calls for ever.

## Main definitions

- `attemptAfter` — the answer to an attempt some time from now
- `OutlivesCoolDown` — the hash is still there when its cool-down is over
- `ForcePending` — a forced open has not renewed the time to live yet
-/

namespace CloudMesh.CircuitBreaker

open Concurrent

/-! ## The scripts and the time to live -/

section Scripts

variable {cfg : CircuitBreakerConfig} {clock now : ℤ} {success : Bool} {key : CircuitKey}

theorem expireAt_expire (h : key.hash ≠ .empty) :
    (key.expire clock).expireAt = some (clock + 1000 * ttlSeconds) := by
  simp [CircuitKey.expire, h]

theorem expireAt_expire_or : (key.expire clock).expireAt = key.expireAt ∨
    (key.expire clock).expireAt = some (clock + 1000 * ttlSeconds) := by
  by_cases hempty : key.hash = .empty
  · exact .inl (by simp [CircuitKey.expire, hempty])
  · exact .inr (expireAt_expire hempty)

/-- An open circuit has a hash to expire. -/
theorem expireAt_expire_of_opened (h : (key.expire clock).state = .opened) :
    (key.expire clock).expireAt = some (clock + 1000 * ttlSeconds) := by
  refine expireAt_expire fun hempty => ?_
  simp [CircuitKey.state, hempty, CircuitHash.empty] at h

/-- An attempt leaves the time to live as it is or renews it. -/
theorem attempt_expireAt : (attemptScript cfg clock now key).2.expireAt = key.expireAt ∨
    (attemptScript cfg clock now key).2.expireAt = some (clock + 1000 * ttlSeconds) := by
  unfold attemptScript
  split
  · split
    · exact .inl rfl
    · split <;> exact .inl rfl
  · split
    · exact .inr (expireAt_expire (by simp [CircuitKey.hset, CircuitHash.hset, CircuitHash.empty]))
    · exact .inl rfl
  · split <;> exact .inl rfl

theorem attempt_openedAt : (attemptScript cfg clock now key).2.openedAt = key.openedAt := by
  unfold attemptScript
  split
  · split
    · simp [CircuitHash.empty]
    · split <;> simp [CircuitHash.empty]
  · split <;> simp [CircuitHash.empty]
  · split <;> simp [CircuitHash.empty]

/-- The circuit is open after an attempt only if the attempt has changed nothing. -/
theorem attempt_eq_of_opened (h : (attemptScript cfg clock now key).2.state = .opened) :
    (attemptScript cfg clock now key).2 = key := by
  have hatt := @attempted cfg clock now key
  generalize (attemptScript cfg clock now key).1 = answer at hatt
  generalize (attemptScript cfg clock now key).2 = key' at hatt h
  cases hatt with
  | closed hs hs' => simp [hs'] at h
  | probe hs hs' => simp [hs'] at h
  | refused => rfl

/-- A report that writes anything renews the time to live. -/
theorem report_renewed : (reportScript cfg clock now success key).2 = key ∨
    (reportScript cfg clock now success key).2.expireAt = some (clock + 1000 * ttlSeconds) := by
  unfold reportScript
  split
  · split
    · exact .inr (expireAt_expire (by simp [CircuitKey.hset, CircuitHash.hset, CircuitHash.empty]))
    · exact .inl rfl
  · split
    · exact .inr (expireAt_expire (by simp [CircuitKey.hset, CircuitHash.hset, CircuitHash.empty]))
    · dsimp only
      split <;> exact .inr
        (expireAt_expire (by simp [CircuitKey.hset, CircuitHash.hset, CircuitHash.empty]))

theorem report_openedAt : (reportScript cfg clock now success key).2.openedAt = key.openedAt ∨
    (reportScript cfg clock now success key).2.openedAt = now := by
  unfold reportScript
  split
  · split
    · exact .inl (by simp [CircuitHash.empty])
    · exact .inl rfl
  · split
    · exact .inr (by simp)
    · dsimp only
      split
      · exact .inr (by simp)
      · exact .inl (by simp [CircuitHash.empty])

theorem report_openedAt_le (hnow : now ≤ clock) (h : key.openedAt ≤ clock) :
    (reportScript cfg clock now success key).2.openedAt ≤ clock := by
  rcases @report_openedAt cfg clock now success key with hsame | hnew
  · exact hsame.trans_le h
  · exact hnew.trans_le hnow

/-- From the cool-down's end on, the attempt on an open circuit is admitted as a probe. -/
theorem attempt_after_coolDown (hs : key.state = .opened)
    (h : key.openedAt + cfg.openDurationMs ≤ now) :
    (attemptScript cfg clock now key).1 = (true, .halfOpen) := by
  have hcool : now - key.openedAt ≥ cfg.openDurationMs := by omega
  simp [attemptScript, hs, hcool]

theorem coolDown_over_of_attempt (hs : key.state = .opened)
    (h : (attemptScript cfg clock now key).1 = (true, .halfOpen)) :
    key.openedAt + cfg.openDurationMs ≤ now := by
  by_contra hlt
  have hcool : ¬now - key.openedAt ≥ cfg.openDurationMs := by omega
  simp [attemptScript, hs, hcool] at h

theorem purge_eq_self_iff (hs : key.state ≠ .closed) :
    key.purge clock = key ↔ ∀ t ∈ key.expireAt, clock < t := by
  unfold CircuitKey.purge
  cases ht : key.expireAt with
  | none => simp
  | some t =>
    simp only [Option.mem_def, Option.some.injEq, forall_eq']
    split
    · rename_i hle
      refine ⟨fun heq => absurd (heq ▸ rfl) hs, fun hlt => absurd hle (not_le.mpr hlt)⟩
    · rename_i hlt
      exact ⟨fun _ => not_le.mp hlt, fun _ => rfl⟩

/-- What is still there expires later. -/
theorem lt_of_expireAt_purge {t : ℤ} (ht : t ∈ (key.purge clock).expireAt) : clock < t := by
  rcases purge_eq_missing_or key clock with hsame | hgone
  · rw [hsame] at ht
    by_contra hle
    have hmissing : key.purge clock = .missing := by
      simp [CircuitKey.purge, Option.mem_def.mp ht, not_lt.mp hle]
    rw [hsame] at hmissing
    cases hmissing ▸ ht
  · cases hgone ▸ ht

end Scripts

/-! ## Recovery -/

/-- What `ATTEMPT_SCRIPT` answers if nothing but time has passed until then. -/
def attemptAfter (config : CircuitBreakerConfig) (name : String) (s : Store) (d : ℕ) :
    Bool × CircuitState :=
  (attemptScript config (s.clock + d) (s.clock + d) ((s.tick d).circuits name)).1

/-- The hash is still there when its cool-down is over. -/
def OutlivesCoolDown (config : CircuitBreakerConfig) (key : CircuitKey) : Prop :=
  key.purge (key.openedAt + config.openDurationMs) = key

/-- `p` has forced the circuit open and not renewed its time to live. -/
def ForcePending (name : String) (p : Pid) (h : List BreakerEvent) : Prop :=
  (∃ fields r, ⟨p, .hset name fields, r⟩ ∈ h) ∧ ∀ r, ⟨p, .expire name, r⟩ ∉ h

/-- The hash is there, opened in the past, and if it is open it lives for its full time from then
on, or from the renewal that a forced open still owes it. -/
structure Lasting (name : String) (w : BreakerWorld) : Prop where
  opened : (w.shared.circuits name).openedAt ≤ w.shared.clock
  expires : ∀ t ∈ (w.shared.circuits name).expireAt, w.shared.clock < t
  lasts : (w.shared.circuits name).state = .opened → (∃ p, ForcePending name p w.history) ∨
    ∀ t ∈ (w.shared.circuits name).expireAt,
      (w.shared.circuits name).openedAt + 1000 * ttlSeconds ≤ t

variable {config : String → CircuitBreakerConfig} {name : String} {c d : BreakerConfig}
  {a : Action sig Pid ℕ Op}

theorem ForcePending.cons {p : Pid} {h : List BreakerEvent} (hp : ForcePending name p h)
    {e : BreakerEvent} (he : ∀ q r, e ≠ ⟨q, .expire name, r⟩) : ForcePending name p (e :: h) := by
  obtain ⟨⟨fields, r, hset⟩, hnot⟩ := hp
  refine ⟨⟨fields, r, List.mem_cons_of_mem _ hset⟩, fun r' hmem => ?_⟩
  rcases List.mem_cons.mp hmem with heq | hmem
  · exact he p r' heq.symm
  · exact hnot r' hmem

/-- A command renews the time to live, leaves an open circuit as it is, or forces it open. -/
theorem Lasting.command {w : BreakerWorld} (hi : Lasting name w) {e : BreakerEvent} {s : Store}
    (hclock : s.clock = w.shared.clock) (hopened : (s.circuits name).openedAt ≤ w.shared.clock)
    (hexpires : ∀ t ∈ (s.circuits name).expireAt,
      (w.shared.circuits name).expireAt = some t ∨ t = w.shared.clock + 1000 * ttlSeconds)
    (hs : (s.circuits name).state = .opened →
      (s.circuits name).expireAt = some (w.shared.clock + 1000 * ttlSeconds) ∨
        s.circuits name = w.shared.circuits name ∧ (∀ q r, e ≠ ⟨q, .expire name, r⟩) ∨
          ∃ p, ForcePending name p (e :: w.history)) : Lasting name (w.after e s) := by
  refine ⟨by simpa [hclock] using hopened, fun t ht => ?_, fun hstate => ?_⟩
  · rw [World.after_shared, hclock]
    rcases hexpires t ht with hsame | rfl
    · exact hi.expires t hsame
    · simp [ttlSeconds]
  · simp only [World.after_shared, World.after_history] at hstate ⊢
    rcases hs hstate with hnew | ⟨hsame, he⟩ | hpending
    · refine .inr fun t ht => ?_
      cases hnew.symm.trans ht
      omega
    · rw [hsame] at hstate ⊢
      exact (hi.lasts hstate).imp (fun ⟨p, hp⟩ => ⟨p, hp.cons he⟩) id
    · exact .inl hpending

/-- Time removes what has expired and leaves the rest as it is. -/
theorem Lasting.tick {w : BreakerWorld} (hi : Lasting name w) (h0 : 0 ≤ w.shared.clock) (n : ℕ) :
    Lasting name ⟨w.shared.tick n, w.history⟩ := by
  have hclock : (w.shared.tick n).clock = w.shared.clock + n := rfl
  have hkey : (w.shared.tick n).circuits name =
    (w.shared.circuits name).purge (w.shared.clock + n) := rfl
  refine ⟨?_, fun t ht => lt_of_expireAt_purge ht, fun hstate => ?_⟩
  · have hopened := hi.opened
    simp only [hkey, hclock]
    rcases purge_eq_missing_or (w.shared.circuits name) (w.shared.clock + n) with hsame | hgone
    · rw [hsame]
      omega
    · rw [hgone]
      show (0 : ℤ) ≤ _
      omega
  · simp only [hkey] at hstate ⊢
    rcases purge_eq_missing_or (w.shared.circuits name) (w.shared.clock + n) with hsame | hgone
    · rw [hsame] at hstate ⊢
      exact hi.lasts hstate
    · simp [hgone] at hstate

theorem lasting_step (hconf : System.Conforms (Rule config) AllReported c)
    (hread : ClockRead c.world) (h0 : 0 ≤ c.world.shared.clock) (hi : Lasting name c.world)
    (h : (breaker config).Steps c a d) : Lasting name d.world := by
  cases h with
  | start => exact hi
  | @drift n s hx =>
    cases hx
    exact hi.tick h0 n
  | @command p i P cmd k r s hp hk hx =>
    have hclock : s.clock = c.world.shared.clock := exec_clock p hx
    have hrule := hconf.allowed hp hk
    by_cases hon : OnKey name cmd
    · cases cmd with
      | dateNow | fn => exact hon.elim
      | evalAttempt n now cfg =>
        obtain rfl : n = name := hon
        cases hx
        refine hi.command hclock ?_ ?_ ?_ <;> rw [Store.set_circuits_self]
        · exact attempt_openedAt.trans_le hi.opened
        · intro t ht
          rcases attempt_expireAt with hsame | hnew
          · exact .inl (hsame.symm.trans ht)
          · exact .inr (Option.some.inj (ht.symm.trans hnew))
        · exact fun ho => .inr (.inl ⟨attempt_eq_of_opened ho, fun _ _ he => by cases he⟩)
      | evalReport n now success cfg =>
        obtain rfl : n = name := hon
        obtain ⟨-, -, -, hnow⟩ := hrule
        have hle := hread p now (mem_transcript.mp hnow)
        cases hx
        have hrenewed := @report_renewed cfg c.world.shared.clock now success
          (c.world.shared.circuits n)
        refine hi.command hclock ?_ ?_ ?_ <;> rw [Store.set_circuits_self]
        · exact report_openedAt_le hle hi.opened
        · intro t ht
          rcases hrenewed with hsame | hnew
          · exact .inl (hsame ▸ ht)
          · exact .inr (Option.some.inj (ht.symm.trans hnew))
        · rintro -
          rcases hrenewed with hsame | hnew
          · exact .inr (.inl ⟨hsame, fun _ _ he => by cases he⟩)
          · exact .inl hnew
      | hset n fields =>
        obtain rfl : n = name := hon
        obtain ⟨now, hfirst, rfl⟩ := hrule
        have hle := hread p now (mem_transcript.mp (hfirst ▸ List.mem_cons_self))
        cases hx
        refine hi.command hclock ?_ ?_ ?_ <;> rw [Store.set_circuits_self]
        · simpa [forceOpenFields] using hle
        · exact fun t ht => .inl ht
        · -- the time to live is still the one from before
          refine fun _ => .inr (.inr ⟨p, ⟨_, _, List.mem_cons_self⟩, fun r hmem => ?_⟩)
          rcases List.mem_cons.mp hmem with he | he
          · cases he
          · have hmem := mem_transcript.mpr he
            simp [hfirst] at hmem
      | expire n =>
        obtain rfl : n = name := hon
        cases hx
        refine hi.command hclock ?_ ?_ ?_ <;> rw [Store.set_circuits_self]
        · exact openedAt_expire.trans_le hi.opened
        · intro t ht
          rcases expireAt_expire_or with hsame | hnew
          · exact .inl (hsame.symm.trans ht)
          · exact .inr (Option.some.inj (ht.symm.trans hnew))
        · exact fun ho => .inl (expireAt_expire_of_opened ho)
      | del n =>
        obtain rfl : n = name := hon
        cases hx
        refine hi.command hclock ?_ ?_ ?_ <;> rw [Store.set_circuits_self]
        · exact h0
        · exact fun _ ht => by cases ht
        · exact fun ho => by cases ho
    · have hsame := circuits_of_not_onKey p hx hon
      refine hi.command hclock (hsame ▸ hi.opened) (fun t ht => .inl (hsame ▸ ht)) fun _ =>
        .inr (.inl ⟨hsame, fun q r he => ?_⟩)
      cases he
      exact hon rfl

/-- What a run has stored lasts. -/
theorem lasting_run {ls : List BreakerLabel}
    (hrun : (breaker config).run (.init .empty) ls = some c) : Lasting name c.world := by
  let I (x : BreakerConfig) : Prop := ClockRead x.world ∧ 0 ≤ x.world.shared.clock ∧
    Lasting name x.world
  have hinit : I (.init .empty) := by
    refine ⟨fun _ _ h => ?_, le_rfl, le_rfl, fun _ h => ?_, fun h => ?_⟩
    all_goals cases h
  have hI : I c := by
    refine System.invariant_run (obeys config) (fun x a y hx hi _ hstep => ?_)
      (System.conforms_init _) hinit hrun (System.along_of_forall (fun _ _ => trivial) _ _)
    obtain ⟨hread, h0, hlasting⟩ := hi
    exact ⟨clockRead_step hread hstep, h0.trans (clock_le_of_steps hstep),
      lasting_step hx hread h0 hlasting hstep⟩
  exact hI.2.2

/-- An open circuit lets a call through at some later time. -/
theorem exists_attemptAfter (s : Store) (hs : (s.circuits name).state = .opened) :
    ∃ d : ℕ, (attemptAfter (config name) name s d).1 = true := by
  let d := ((s.circuits name).openedAt + (config name).openDurationMs - s.clock).toNat
  have hd : (s.circuits name).openedAt + (config name).openDurationMs ≤ s.clock + d := by
    have := Int.self_le_toNat ((s.circuits name).openedAt + (config name).openDurationMs - s.clock)
    omega
  refine ⟨d, ?_⟩
  unfold attemptAfter
  have hkey : (s.tick d).circuits name = (s.circuits name).purge (s.clock + d) := rfl
  rcases purge_eq_missing_or (s.circuits name) (s.clock + d) with hsame | hgone
  · rw [hkey, hsame]
    exact congrArg Prod.fst (attempt_after_coolDown hs hd)
  · rw [hkey, hgone]
    rfl

/-- That call is the probe if and only if the hash outlives the cool-down. -/
theorem exists_probe_iff {w : BreakerWorld} (hi : Lasting name w)
    (hs : (w.shared.circuits name).state = .opened) :
    (∃ d : ℕ, attemptAfter (config name) name w.shared d = (true, .halfOpen)) ↔
      OutlivesCoolDown (config name) (w.shared.circuits name) := by
  have hnot : (w.shared.circuits name).state ≠ .closed := by simp [hs]
  rw [OutlivesCoolDown, purge_eq_self_iff hnot]
  constructor
  · rintro ⟨d, hd⟩ t ht
    unfold attemptAfter at hd
    have hkey : (w.shared.tick d).circuits name =
      (w.shared.circuits name).purge (w.shared.clock + d) := rfl
    rcases purge_eq_missing_or (w.shared.circuits name) (w.shared.clock + d) with hsame | hgone
    · rw [hkey, hsame] at hd
      exact (coolDown_over_of_attempt hs hd).trans_lt ((purge_eq_self_iff hnot).mp hsame t ht)
    · rw [hkey, hgone] at hd
      cases hd
  · intro hall
    let key := w.shared.circuits name
    let d := (key.openedAt + (config name).openDurationMs - w.shared.clock).toNat
    refine ⟨d, ?_⟩
    have hmax : w.shared.clock + d = max (key.openedAt + (config name).openDurationMs)
        w.shared.clock := by
      simp only [d, Int.toNat_eq_max]
      omega
    have hsame : key.purge (w.shared.clock + d) = key := by
      refine (purge_eq_self_iff hnot).mpr fun t ht => ?_
      rw [hmax]
      exact max_lt (hall t ht) (hi.expires t ht)
    unfold attemptAfter
    rw [show (w.shared.tick d).circuits name = key from hsame]
    exact attempt_after_coolDown hs (hmax ▸ le_max_left _ _)

/-- With a cool-down of less than the time to live, the hash outlives it once every forced open has
renewed the time to live. -/
theorem outlivesCoolDown {w : BreakerWorld} (hi : Lasting name w)
    (hs : (w.shared.circuits name).state = .opened)
    (hshort : (config name).openDurationMs < 1000 * ttlSeconds)
    (hforce : ∀ p, ¬ForcePending name p w.history) :
    OutlivesCoolDown (config name) (w.shared.circuits name) := by
  refine (purge_eq_self_iff (by simp [hs])).mpr fun t ht => ?_
  have hlasts := (hi.lasts hs).resolve_left (fun ⟨p, hp⟩ => hforce p hp) t ht
  omega

/-! ## Wedging -/

/-- After every run, a claimed half-open slot belongs to a call in flight whose report gives it
up, and an open circuit lets a call through at some later time. That call is the probe if and only
if the hash outlives the cool-down, as it does when the cool-down is shorter than the time to live
and no forced open has still to renew it; else it finds a closed circuit. -/
theorem breaker_never_wedges (config : String → CircuitBreakerConfig) (name : String)
    (ls : List BreakerLabel)
    (c : BreakerConfig)
    (hrun : (breaker config).run (.init .empty) ls = some c) :
    ((c.world.shared.circuits name).state = .halfOpen →
      (c.world.shared.circuits name).hash.probeTaken = some "1" →
        ∃ p now, Admitted name now (config name) .halfOpen p c.world.history ∧
          Unreported name p c.world.history ∧ InFlight c p ∧
          ∀ success, (reportScript (config name) c.world.shared.clock now success
            (c.world.shared.circuits name)).2.state ≠ .halfOpen) ∧
    ((c.world.shared.circuits name).state = .opened →
      (∃ d : ℕ, (attemptAfter (config name) name c.world.shared d).1 = true) ∧
      ((∃ d : ℕ, attemptAfter (config name) name c.world.shared d = (true, .halfOpen)) ↔
        OutlivesCoolDown (config name) (c.world.shared.circuits name)) ∧
      ((config name).openDurationMs < 1000 * ttlSeconds →
        (∀ p, ¬ForcePending name p c.world.history) →
          OutlivesCoolDown (config name) (c.world.shared.circuits name))) := by
  have hconf := System.conforms_run (obeys config) hrun
  have hheld : SlotHeld config name c.world :=
    System.invariant_run (obeys config)
      (fun _ _ _ hconf hi _ hstep => slotHeld_step hconf hi hstep) (System.conforms_init _)
      (slotHeld_of_ne (by simp [Config.init, Store.empty])) hrun
      (System.along_of_forall (fun _ _ => trivial) _ _)
  constructor
  · intro hs ht
    obtain ⟨p, now, ha, hr⟩ := hheld hs ht
    exact ⟨p, now, ha, hr, inFlight_of_unreported hconf ha hr,
      fun success => state_ne_halfOpen_of_report⟩
  · intro hs
    have hlasting : Lasting name c.world := lasting_run hrun
    exact ⟨exists_attemptAfter _ hs, exists_probe_iff hlasting hs, outlivesCoolDown hlasting hs⟩

theorem breaker_never_wedges_probe : ∃ c,
    (breaker fun _ => oneFailure).run (.init .empty) probeRun = some c ∧ ∃ p, InFlight c p := by
  have hrun : ((breaker fun _ => oneFailure).run (.init .empty) probeRun).map (fun c =>
      ((c.world.shared.circuits "openai").state,
        (c.world.shared.circuits "openai").hash.probeTaken))
        = some (.halfOpen, some "1") := rfl
  obtain ⟨c, hc, hkey⟩ := Option.map_eq_some_iff.mp hrun
  obtain ⟨hs, ht⟩ := Prod.mk.inj hkey
  obtain ⟨p, now, -, -, hp, -⟩ := (breaker_never_wedges _ "openai" probeRun c hc).1 hs ht
  exact ⟨c, hc, p, hp⟩

/-- A cool-down of two hours. -/
def longCoolDown : CircuitBreakerConfig := ⟨1, 60000, 7200000⟩

/-- After one failure the circuit is open for an hour and closed then: no call is a probe. -/
theorem breaker_never_wedges_fails : ¬∀ config name ls c,
    (breaker config).run (.init .empty) ls = some c →
      (c.world.shared.circuits name).state = .opened →
        ∃ d : ℕ, attemptAfter (config name) name c.world.shared d = (true, .halfOpen) := by
  intro h
  have hrun : ((breaker fun _ => longCoolDown).run (.init .empty)
      (attemptLabels "openai" 0 ++ failLabels 0)).map (fun c =>
        c.world.shared.circuits "openai") =
      some ⟨⟨some .opened, some 1, some 0, some 0, none⟩, some 3600000⟩ := rfl
  obtain ⟨c, hc, hkey⟩ := Option.map_eq_some_iff.mp hrun
  have hs : (c.world.shared.circuits "openai").state = .opened := by
    rw [hkey]
    rfl
  have hprobe := h (fun _ => longCoolDown) "openai" _ c hc hs
  rw [@exists_probe_iff (fun _ => longCoolDown) "openai" c.world (lasting_run hc) hs,
    hkey] at hprobe
  exact absurd hprobe (by simp [OutlivesCoolDown, CircuitKey.purge, CircuitKey.openedAt,
    CircuitKey.missing, CircuitHash.empty, longCoolDown])

end CloudMesh.CircuitBreaker
