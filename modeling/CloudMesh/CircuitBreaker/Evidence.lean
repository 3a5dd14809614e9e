import CloudMesh.CircuitBreaker.HalfOpen

/-!
# What trips a circuit

A closed circuit counts the failures of a window, and a new window begins with an attempt. A report
is counted in the window that it finds, whichever window its call started in, so failures that lie
apart by more than a window, or that come from before a recovery, can add up and open the circuit.
In the runs in which every counted failure belongs to the window, the circuit opens on as many
failures of one window as its threshold says.

## Main definitions

- `GenuineEvidence` — the failures that are reason enough to open a circuit
- `CountedInWindow` — the condition on a report
- `Counted` — what the counter of a closed circuit stands for
-/

namespace CloudMesh.CircuitBreaker

open Concurrent

/-- The event is a report that leaves the circuit open. -/
def Opens (name : String) : BreakerEvent → Prop
  | ⟨_, .evalReport n .., state⟩ => n = name ∧ state = CircuitState.opened
  | _ => False

/-- The event lets `p` through in state closed, with the start time `now`. -/
def LetThrough (name : String) (p : Pid) (now : ℤ) : BreakerEvent → Prop
  | ⟨q, .evalAttempt n t _, answer⟩ => q = p ∧ n = name ∧ t = now ∧ answer = (true, .closed)
  | _ => False

/-- `p` was let through in state closed, and the circuit has not been opened since. -/
def ClosedSince (name : String) (p : Pid) (now : ℤ) : List BreakerEvent → Prop
  | [] => False
  | e :: h => LetThrough name p now e ∨ ¬Opens name e ∧ ClosedSince name p now h

/-- As many calls as the threshold says have failed, of those let through since the circuit became
closed, and they started within one window. -/
def GenuineEvidence (config : CircuitBreakerConfig) (name : String) (h : List BreakerEvent) :
    Prop :=
  ∃ calls : List (Pid × ℤ), calls.length = config.failureThreshold ∧
    (calls.map Prod.fst).Nodup ∧
    (∀ call ∈ calls, ClosedSince name call.1 call.2 h ∧ ∃ err, ⟨call.1, .fn, .error err⟩ ∈ h) ∧
    ∀ call ∈ calls, ∀ other ∈ calls, call.2 - other.2 ≤ config.failureWindowMs

/-- Nobody forces the circuit open. -/
def Unforced (name : String) (_ : BreakerWorld) : Action sig Pid ℕ Op → Prop
  | .command ⟨_, .hset n _, _⟩ => n ≠ name
  | _ => True

/-- A failure that is reported while the circuit is closed is of a call that was let through since
the circuit became closed and that started in the current window. -/
def CountedInWindow (config : CircuitBreakerConfig) (name : String) (w : BreakerWorld) :
    Action sig Pid ℕ Op → Prop
  | .command ⟨p, .evalReport n now success _, _⟩ => n = name → success = false →
      (w.shared.circuits name).state = .closed → ClosedSince name p now w.history ∧
        ∃ windowStart, (w.shared.circuits name).hash.windowStart = some windowStart ∧
          windowStart ≤ now ∧ now ≤ windowStart + config.failureWindowMs
  | _ => True

section Decidable

variable {config : CircuitBreakerConfig} {name : String} {p : Pid} {now : ℤ} {w : BreakerWorld}

instance : (e : BreakerEvent) → Decidable (Opens name e)
  | ⟨_, .evalReport n .., state⟩ => inferInstanceAs (Decidable (n = name ∧ state = _))
  | ⟨_, .dateNow, _⟩ | ⟨_, .evalAttempt .., _⟩ | ⟨_, .hset .., _⟩ | ⟨_, .expire _, _⟩
  | ⟨_, .del _, _⟩ | ⟨_, .fn, _⟩ => isFalse id

instance : (e : BreakerEvent) → Decidable (LetThrough name p now e)
  | ⟨q, .evalAttempt n t _, answer⟩ =>
    inferInstanceAs (Decidable (q = p ∧ n = name ∧ t = now ∧ answer = (true, CircuitState.closed)))
  | ⟨_, .dateNow, _⟩ | ⟨_, .evalReport .., _⟩ | ⟨_, .hset .., _⟩ | ⟨_, .expire _, _⟩
  | ⟨_, .del _, _⟩ | ⟨_, .fn, _⟩ => isFalse id

instance decidableClosedSince : (h : List BreakerEvent) → Decidable (ClosedSince name p now h)
  | [] => isFalse id
  | e :: h =>
    have := decidableClosedSince h
    inferInstanceAs (Decidable (LetThrough name p now e ∨ ¬Opens name e ∧ _))

instance : (a : Action sig Pid ℕ Op) → Decidable (Unforced name w a)
  | .command ⟨_, .hset n _, _⟩ => inferInstanceAs (Decidable (n ≠ name))
  | .command ⟨_, .dateNow, _⟩ | .command ⟨_, .evalAttempt .., _⟩ | .command ⟨_, .evalReport .., _⟩
  | .command ⟨_, .expire _, _⟩ | .command ⟨_, .del _, _⟩ | .command ⟨_, .fn, _⟩
  | .start .. | .drift _ => isTrue trivial

instance : (a : Action sig Pid ℕ Op) → Decidable (CountedInWindow config name w a)
  | .command ⟨p, .evalReport n now success _, _⟩ =>
    decidable_of_iff (n = name → success = false → (w.shared.circuits name).state = .closed →
      ClosedSince name p now w.history ∧
        (w.shared.circuits name).hash.windowStart.any fun windowStart =>
          windowStart ≤ now ∧ now ≤ windowStart + config.failureWindowMs)
      (by simp only [CountedInWindow, Option.any_eq_true, decide_eq_true_eq])
  | .command ⟨_, .dateNow, _⟩ | .command ⟨_, .evalAttempt .., _⟩ | .command ⟨_, .hset .., _⟩
  | .command ⟨_, .expire _, _⟩ | .command ⟨_, .del _, _⟩ | .command ⟨_, .fn, _⟩
  | .start .. | .drift _ => isTrue trivial

end Decidable

/-! ## The counter of a closed circuit -/

section Fields

variable {config : CircuitBreakerConfig} {clock now : ℤ} {success : Bool} {key : CircuitKey}

/-- Everything `ATTEMPT_SCRIPT` can do to a counter. -/
inductive CounterAttempted (config : CircuitBreakerConfig) (now : ℤ) (key : CircuitKey) :
    CircuitKey → Prop
  | same : CounterAttempted config now key key
  | first {key'} (hs : key.state = .closed) (h : key.hash.windowStart = none)
      (hf : key'.failures = key.failures) : CounterAttempted config now key key'
  | reset {key'} (hf : key'.failures = 0) : CounterAttempted config now key key'
  | left {key'} (h : key'.state ≠ .closed) : CounterAttempted config now key key'

theorem counterAttempted :
    CounterAttempted config now key (attemptScript config clock now key).2 := by
  unfold attemptScript
  cases hs : key.state with
  | closed =>
    dsimp only
    split
    · next hw => exact .first hs hw rfl
    · split
      · exact .reset rfl
      · exact .same
  | opened =>
    dsimp only
    split
    · exact .left (by simp)
    · exact .same
  | halfOpen =>
    dsimp only
    split
    · exact .same
    · exact .left (by simp [CircuitHash.empty, hs])

/-- Everything `REPORT_SCRIPT` can do to a counter, with its answer. -/
inductive CounterReported (config : CircuitBreakerConfig) (now : ℤ) (key : CircuitKey) :
    Bool → CircuitState → CircuitKey → Prop
  | same {state} (h : key.state = state) : CounterReported config now key true state key
  | recovered {key'} (h : key.state = .halfOpen) (hf : key'.failures = 0) :
      CounterReported config now key true .closed key'
  | counted {key'} (h : key.state = .closed) (h' : key'.state = .closed)
      (hf : key'.failures = key.failures + 1)
      (hw : key'.hash.windowStart = key.hash.windowStart) :
      CounterReported config now key false .closed key'
  | left {success state key'} (h : key'.state ≠ .closed)
      (ht : key.state = .closed → success = false ∧
        config.failureThreshold ≤ key.failures + 1) :
      CounterReported config now key success state key'

theorem counterReported :
    CounterReported config now key success (reportScript config clock now success key).1
      (reportScript config clock now success key).2 := by
  unfold reportScript
  cases success with
  | true =>
    cases hs : key.state with
    | halfOpen =>
      exact .recovered hs (by simp [CircuitKey.failures, CircuitKey.hset, CircuitHash.hset])
    | closed | opened => exact .same hs
  | false =>
    cases hs : key.state with
    | halfOpen => exact .left (by simp) (by simp [hs])
    | closed =>
      simp only [Bool.false_eq_true, if_false]
      split
      · next h => exact .left (by simp) fun _ => ⟨rfl, h⟩
      · refine .counted hs (by simp [CircuitHash.empty, hs]) ?_ ?_
        · simp [CircuitKey.failures, CircuitKey.hset, CircuitHash.hset]
        · simp [CircuitKey.hset, CircuitHash.hset, CircuitHash.empty]
    | opened =>
      simp only [Bool.false_eq_true, if_false]
      split
      · exact .left (by simp) (by simp [hs])
      · exact .left (by simp [CircuitHash.empty, hs]) (by simp [hs])

/-- Only a failure that reaches the threshold opens a closed circuit. -/
theorem CounterReported.trips {answer : CircuitState} {key' : CircuitKey}
    (h : CounterReported config now key success answer key') (hclosed : key.state = .closed)
    (hopen : key'.state = .opened) :
    success = false ∧ config.failureThreshold ≤ key.failures + 1 := by
  cases h with
  | same => cases hclosed.symm.trans hopen
  | recovered h => cases hclosed.symm.trans h
  | counted h h' => cases h'.symm.trans hopen
  | left h ht => exact ht hclosed

end Fields

/-! ## What a call does -/

/-- A report is the last of a call's four commands and says how its `fn` ended. -/
def Reporting (config : String → CircuitBreakerConfig) (_ : Pid) (_ : Op) (t : Transcript sig) :
    Cmd → Prop
  | .evalReport name now success cfg => ∃ (result : Except Thrown Unit) (state : CircuitState),
      cfg = config name ∧ success = result.isOk ∧
      t = [⟨.fn, result⟩, ⟨.evalAttempt name now (config name), (true, state)⟩, ⟨.dateNow, now⟩]
  | _ => True

theorem reporting_obeys (config : String → CircuitBreakerConfig) :
    (breaker config).Obeys (Reporting config) fun _ _ _ _ => True := by
  intro p op
  cases op with
  | withCircuitBreaker name =>
    show (guardedCall config name).run.Follows _ _ _
    rw [guardedCall_run]
    refine ⟨trivial, fun now => ⟨trivial, fun answer => ?_⟩⟩
    obtain ⟨allowed, state⟩ := answer
    cases allowed with
    | false => trivial
    | true =>
      exact ⟨trivial, fun result => ⟨⟨result, state, rfl, rfl, rfl⟩, fun _ => trivial⟩⟩
  | forceOpenCircuit name =>
    exact ⟨trivial, fun _ => ⟨trivial, fun _ => ⟨trivial, fun _ => trivial⟩⟩⟩
  | resetCircuit name => exact ⟨trivial, fun _ => trivial⟩

/-! ## Failures of one window -/

/-- Different calls that have failed and started in the current window, all let through since the
circuit became closed. -/
structure Backed (config : CircuitBreakerConfig) (name : String) (w : BreakerWorld)
    (calls : List (Pid × ℤ)) : Prop where
  nodup : (calls.map Prod.fst).Nodup
  failed : ∀ call ∈ calls, ClosedSince name call.1 call.2 w.history ∧
    ∃ err, ⟨call.1, .fn, .error err⟩ ∈ w.history
  window : ∀ call ∈ calls, ∃ windowStart,
    (w.shared.circuits name).hash.windowStart = some windowStart ∧
      windowStart ≤ call.2 ∧ call.2 ≤ windowStart + config.failureWindowMs

/-- The counter counts no more than the calls, all of which have been reported. -/
structure Counted (config : CircuitBreakerConfig) (name : String) (w : BreakerWorld)
    (calls : List (Pid × ℤ)) : Prop extends Backed config name w calls where
  failures : (w.shared.circuits name).failures ≤ calls.length
  reported : ∀ call ∈ calls, ∃ n now success cfg state,
    ⟨call.1, .evalReport n now success cfg, state⟩ ∈ w.history

section Backed

variable {config : CircuitBreakerConfig} {name : String} {w w' : BreakerWorld}
  {calls : List (Pid × ℤ)} {p : Pid} {now : ℤ}

theorem Counted.nil (h : (w.shared.circuits name).failures = 0) : Counted config name w [] :=
  ⟨⟨List.nodup_nil, by simp, by simp⟩, h.le, by simp⟩

/-- Without a window nothing has been counted. -/
theorem Counted.eq_nil (h : Counted config name w calls)
    (hw : (w.shared.circuits name).hash.windowStart = none) : calls = [] := by
  apply List.eq_nil_iff_forall_not_mem.mpr
  intro call hcall
  obtain ⟨windowStart, hstart, -⟩ := h.window call hcall
  cases hw.symm.trans hstart

theorem Backed.cons (h : Backed config name w calls) (hp : p ∉ calls.map Prod.fst)
    (hsince : ClosedSince name p now w.history)
    (herr : ∃ err, (⟨p, .fn, .error err⟩ : BreakerEvent) ∈ w.history)
    (hwindow : ∃ windowStart, (w.shared.circuits name).hash.windowStart = some windowStart ∧
      windowStart ≤ now ∧ now ≤ windowStart + config.failureWindowMs) :
    Backed config name w ((p, now) :: calls) :=
  ⟨List.nodup_cons.mpr ⟨hp, h.nodup⟩, List.forall_mem_cons.mpr ⟨⟨hsince, herr⟩, h.failed⟩,
    List.forall_mem_cons.mpr ⟨hwindow, h.window⟩⟩

theorem Backed.evidence (h : Backed config name w calls)
    (hle : config.failureThreshold ≤ calls.length) : GenuineEvidence config name w.history := by
  have hsub := List.take_subset config.failureThreshold calls
  refine ⟨calls.take config.failureThreshold, List.length_take_of_le hle, ?_,
    fun call hcall => h.failed call (hsub hcall), fun call hcall other hother => ?_⟩
  · exact h.nodup.sublist ((List.take_sublist _ _).map _)
  · obtain ⟨windowStart, hstart, -, hle⟩ := h.window call (hsub hcall)
    obtain ⟨windowStart', hstart', hge, -⟩ := h.window other (hsub hother)
    obtain rfl := Option.some.inj (hstart.symm.trans hstart')
    omega

theorem Backed.after {e : BreakerEvent} {s : Store} (h : Backed config name w calls)
    (he : ¬Opens name e) (hw : (s.circuits name).hash.windowStart =
      (w.shared.circuits name).hash.windowStart) : Backed config name (w.after e s) calls := by
  refine ⟨h.nodup, fun call hcall => ?_, fun call hcall => ?_⟩
  · obtain ⟨hsince, err, herr⟩ := h.failed call hcall
    exact ⟨.inr ⟨he, hsince⟩, err, List.mem_cons_of_mem _ herr⟩
  · exact hw ▸ h.window call hcall

theorem Counted.after {e : BreakerEvent} {s : Store} (h : Counted config name w calls)
    (he : ¬Opens name e) (hw : (s.circuits name).hash.windowStart =
      (w.shared.circuits name).hash.windowStart)
    (hf : (s.circuits name).failures = (w.shared.circuits name).failures) :
    Counted config name (w.after e s) calls := by
  refine ⟨h.toBacked.after he hw, hf.trans_le h.failures, fun call hcall => ?_⟩
  obtain ⟨n, now, success, cfg, state, hreport⟩ := h.reported call hcall
  exact ⟨n, now, success, cfg, state, List.mem_cons_of_mem _ hreport⟩

end Backed

/-! ## The counter over a run -/

variable {config : String → CircuitBreakerConfig} {name : String} {c d : BreakerConfig}
  {a : Action sig Pid ℕ Op}

/-- While the circuit is closed, its counter stands for calls of the window. -/
def Tallied (config : CircuitBreakerConfig) (name : String) (w : BreakerWorld) : Prop :=
  (w.shared.circuits name).state = .closed → ∃ calls, Counted config name w calls

/-- What a failure report finds if it is counted in the window of its call. -/
theorem backed_of_report {w : BreakerWorld} {calls : List (Pid × ℤ)} {p : Pid} {n : String}
    {now : ℤ} {cfg : CircuitBreakerConfig} {r : CircuitState}
    (hrule : Reporting config p (.withCircuitBreaker name) (transcript p w.history)
      (.evalReport n now false cfg))
    (hcalls : Counted (config name) name w calls)
    (hk : CountedInWindow (config name) name w (.command ⟨p, .evalReport n now false cfg, r⟩))
    (hn : n = name) (hclosed : (w.shared.circuits name).state = .closed) :
    Backed (config name) name w ((p, now) :: calls) := by
  obtain ⟨hsince, hwindow⟩ := hk hn rfl hclosed
  obtain ⟨result, state, -, hresult, ht⟩ := hrule
  refine hcalls.toBacked.cons ?_ hsince ?_ hwindow
  · intro hmem
    obtain ⟨call, hcall, rfl⟩ := List.mem_map.mp hmem
    obtain ⟨n', now', success', cfg', state', hreport⟩ := hcalls.reported call hcall
    have hin := mem_transcript.mpr hreport
    rw [ht] at hin
    simp at hin
  · cases result with
    | ok _ => cases hresult
    | error err => exact ⟨err, mem_transcript.mp (ht ▸ List.mem_cons_self)⟩

theorem not_opens_of_ne {p : Pid} {cmd : sig.Cmd} {r : sig.Ans cmd} (h : ¬OnKey name cmd) :
    ¬Opens name ⟨p, cmd, r⟩ := by
  cases cmd with
  | evalReport n now success cfg => exact fun ho => h ho.1
  | dateNow | evalAttempt | hset | expire | del | fn => exact id

theorem tallied_attempt {w : BreakerWorld} {e : BreakerEvent} {now : ℤ} {key' : CircuitKey}
    (hi : Tallied (config name) name w)
    (h : CounterAttempted (config name) now (w.shared.circuits name) key') (he : ¬Opens name e) :
    Tallied (config name) name (w.after e (w.shared.set name key')) := by
  intro hclosed
  rw [World.after_shared, Store.set_circuits_self] at hclosed
  cases h with
  | same =>
    obtain ⟨calls, hcalls⟩ := hi hclosed
    exact ⟨calls, hcalls.after he (by simp) (by simp)⟩
  | first hs hw hf =>
    obtain ⟨calls, hcalls⟩ := hi hs
    obtain rfl := hcalls.eq_nil hw
    exact ⟨[], .nil (by simpa using hf.trans (Nat.le_zero.mp hcalls.failures))⟩
  | reset hf => exact ⟨[], .nil (by simpa using hf)⟩
  | left h => exact absurd hclosed h

theorem tallied_report {w : BreakerWorld} {p : Pid} {now : ℤ} {success : Bool}
    {answer : CircuitState} {key' : CircuitKey} (hi : Tallied (config name) name w)
    (h : CounterReported (config name) now (w.shared.circuits name) success answer key')
    (hbacked : ∀ calls, success = false → (w.shared.circuits name).state = .closed →
      Counted (config name) name w calls → Backed (config name) name w ((p, now) :: calls)) :
    Tallied (config name) name
      (w.after ⟨p, .evalReport name now success (config name), answer⟩
        (w.shared.set name key')) := by
  intro hclosed
  rw [World.after_shared, Store.set_circuits_self] at hclosed
  cases h with
  | same h =>
    obtain ⟨calls, hcalls⟩ := hi hclosed
    have he : ¬Opens name ⟨p, .evalReport name now true (config name), answer⟩ := by
      rintro ⟨-, ho⟩
      rw [← h, hclosed] at ho
      cases ho
    exact ⟨calls, hcalls.after he (by simp) (by simp)⟩
  | recovered h hf => exact ⟨[], .nil (by simpa using hf)⟩
  | counted h h' hf hw =>
    obtain ⟨calls, hcalls⟩ := hi h
    have he : ¬Opens name ⟨p, .evalReport name now false (config name), CircuitState.closed⟩ := by
      rintro ⟨-, ho⟩
      cases ho
    refine ⟨(p, now) :: calls, (hbacked calls rfl h hcalls).after he (by simpa using hw), ?_, ?_⟩
    · simpa [hf] using hcalls.failures
    · refine List.forall_mem_cons.mpr ⟨⟨_, _, _, _, _, List.mem_cons_self⟩, fun call hcall => ?_⟩
      obtain ⟨n, now', success', cfg, state, hreport⟩ := hcalls.reported call hcall
      exact ⟨n, now', success', cfg, state, List.mem_cons_of_mem _ hreport⟩
  | left h => exact absurd hclosed h

theorem tallied_step (hconf : System.Conforms (Reporting config) (fun _ _ _ _ => True) c)
    (hrule : System.Conforms (Rule config) AllReported c)
    (hi : Tallied (config name) name c.world) (hu : Unforced name c.world a)
    (hk : CountedInWindow (config name) name c.world a) (hstep : (breaker config).Steps c a d) :
    Tallied (config name) name d.world := by
  cases hstep with
  | start => exact hi
  | @drift n s hx =>
    cases hx
    intro hclosed
    rcases purge_eq_missing_or (c.world.shared.circuits name) (c.world.shared.clock + n) with h | h
    · have hsame : (c.world.shared.tick n).circuits name = c.world.shared.circuits name := h
      obtain ⟨calls, hcalls⟩ := hi (hsame ▸ hclosed)
      refine ⟨calls, ⟨hcalls.nodup, hcalls.failed, ?_⟩, ?_, hcalls.reported⟩
      · exact fun call hcall => hsame ▸ hcalls.window call hcall
      · exact hsame ▸ hcalls.failures
    · have hgone : (c.world.shared.tick n).circuits name = .missing := h
      exact ⟨[], .nil (hgone ▸ rfl)⟩
  | @command p i P cmd k r s hp hprog hx =>
    by_cases hon : OnKey name cmd
    · cases cmd with
      | dateNow | fn => exact hon.elim
      | hset => exact absurd hon hu
      | evalAttempt n now cfg =>
        obtain rfl : n = name := hon
        obtain ⟨rfl, -⟩ := hrule.allowed hp hprog
        cases hx
        exact tallied_attempt hi counterAttempted id
      | evalReport n now success cfg =>
        obtain rfl : n = name := hon
        have hreporting := hconf.allowed hp hprog
        obtain ⟨rfl, -⟩ := hrule.allowed hp hprog
        cases hx
        refine tallied_report hi counterReported fun calls hfailed hclosed hcalls => ?_
        subst hfailed
        exact backed_of_report hreporting hcalls hk rfl hclosed
      | expire n =>
        obtain rfl : n = name := hon
        cases hx
        intro hclosed
        obtain ⟨calls, hcalls⟩ := hi (by simpa using hclosed)
        exact ⟨calls, hcalls.after id (by simp) (by simp [CircuitKey.failures])⟩
      | del n =>
        obtain rfl : n = name := hon
        cases hx
        exact fun _ => ⟨[], .nil (by simp; rfl)⟩
    · have hsame := circuits_of_not_onKey p hx hon
      intro hclosed
      obtain ⟨calls, hcalls⟩ := hi (hsame ▸ hclosed)
      exact ⟨calls, hcalls.after (not_opens_of_ne hon) (by rw [hsame]) (by rw [hsame])⟩

/-- Every report that opens a closed circuit finds the evidence for it, in the runs in which nobody
forces the circuit open and every failure is counted in the window its call started in. -/
theorem genuineEvidence_of_countedInWindow (config : String → CircuitBreakerConfig) (name : String)
    (pre : List BreakerLabel) (l : BreakerLabel) (c d : BreakerConfig) (p : Pid) (now : ℤ)
    (success : Bool) (cfg : CircuitBreakerConfig) (answer : CircuitState)
    (hpre : (breaker config).run (.init .empty) pre = some c)
    (hl : (breaker config).next c l =
      some (.command ⟨p, .evalReport name now success cfg, answer⟩, d))
    (hclosed : (c.world.shared.circuits name).state = .closed)
    (hopen : (d.world.shared.circuits name).state = .opened)
    (hu : (breaker config).Along (fun c => Unforced name c.world) (.init .empty) (pre ++ [l]))
    (hk : (breaker config).Along (fun c => CountedInWindow (config name) name c.world)
      (.init .empty) (pre ++ [l])) : GenuineEvidence (config name) name c.world.history := by
  have hconf := System.conforms_run (reporting_obeys config) hpre
  have hrule := System.conforms_run (obeys config) hpre
  obtain ⟨hupre, -⟩ := (System.along_append hpre).mp hu
  obtain ⟨hkpre, hklast⟩ := (System.along_append hpre).mp hk
  have hi : Tallied (config name) name c.world := by
    have h : System.Conforms (Rule config) AllReported c ∧ Tallied (config name) name c.world := by
      refine System.invariant_run (I := fun c => System.Conforms (Rule config) AllReported c ∧
        Tallied (config name) name c.world) (reporting_obeys config) ?_ (System.conforms_init _)
        ⟨System.conforms_init _, fun _ => ⟨[], .nil rfl⟩⟩ hpre (hupre.and hkpre)
      intro c a d hconf hi ha hst
      exact ⟨hi.1.step (obeys config) hst, tallied_step hconf hi.1 hi.2 ha.1 ha.2 hst⟩
    exact h.2
  obtain ⟨calls, hcalls⟩ := hi hclosed
  have hkl := (hklast _ _ hl).1
  cases System.steps_of_next hl with
  | @command _ i P _ k _ s hp hprog hx =>
    have hreporting := hconf.allowed hp hprog
    obtain ⟨rfl, -⟩ := hrule.allowed hp hprog
    cases hx
    rw [World.after_shared, Store.set_circuits_self] at hopen
    obtain ⟨rfl, hle⟩ := counterReported.trips hclosed hopen
    refine (backed_of_report hreporting hcalls hkl rfl hclosed).evidence ?_
    exact hle.trans (Nat.succ_le_succ hcalls.failures)

/-- Two failures within a minute. -/
def twoFailures : CircuitBreakerConfig := ⟨2, 60000, 30000⟩

/-- Two calls that overlap fail, and the second report opens the circuit. -/
theorem genuineEvidence_of_countedInWindow_overlap : ∃ c,
    (breaker fun _ => twoFailures).run (.init .empty) (attemptLabels "openai" 0 ++ [.drift 50000] ++
      attemptLabels "openai" 1 ++ failLabels 1 ++ [.step 0 (.error (.error "fetch failed"))]) =
        some c ∧ GenuineEvidence twoFailures "openai" c.world.history := by
  let sys := breaker fun _ => twoFailures
  let pre := attemptLabels "openai" 0 ++ [.drift 50000] ++ attemptLabels "openai" 1 ++
    failLabels 1 ++ [.step 0 (.error (.error "fetch failed"))]
  have hc : (sys.run (.init .empty) pre).isSome := by decide
  let c := (sys.run (.init .empty) pre).get hc
  have hd : (sys.next c (.step 0 (.ok ()))).isSome := rfl
  let d := ((sys.next c (.step 0 (.ok ()))).get hd).2
  refine ⟨c, rfl, ?_⟩
  exact genuineEvidence_of_countedInWindow (fun _ => twoFailures) "openai" pre (.step 0 (.ok ()))
    c d 0 0 false twoFailures .opened rfl rfl rfl rfl (by decide) (by decide)

def lateFailureHistory : List BreakerEvent :=
  [⟨0, .fn, (.error (.error "fetch failed") : Except Thrown Unit)⟩,
    ⟨1, .evalReport "openai" 100000 false twoFailures, CircuitState.closed⟩,
    ⟨1, .fn, (.error (.error "fetch failed") : Except Thrown Unit)⟩,
    ⟨1, .evalAttempt "openai" 100000 twoFailures, (true, .closed)⟩, ⟨1, .dateNow, (100000 : ℤ)⟩,
    ⟨0, .evalAttempt "openai" 0 twoFailures, (true, .closed)⟩, ⟨0, .dateNow, (0 : ℤ)⟩]

theorem start_of_closedSince {p : Pid} {now : ℤ}
    (h : ClosedSince "openai" p now lateFailureHistory) :
    p = 0 ∧ now = 0 ∨ p = 1 ∧ now = 100000 := by
  have hcases : 1 = p ∧ 100000 = now ∨ 0 = p ∧ 0 = now := by
    simpa [lateFailureHistory, ClosedSince, LetThrough, Opens] using h
  rcases hcases with ⟨rfl, rfl⟩ | ⟨rfl, rfl⟩
  · exact .inr ⟨rfl, rfl⟩
  · exact .inl ⟨rfl, rfl⟩

/-- Call 0 starts at 0 and takes 100 seconds; call 1 starts then, begins a new window and fails, and
the failure of call 0 is the second in that window. -/
theorem genuineEvidence_fails : ¬∀ config name pre l c d p now success cfg answer,
    (breaker config).run (.init .empty) pre = some c →
    (breaker config).next c l =
      some (.command ⟨p, .evalReport name now success cfg, answer⟩, d) →
    (c.world.shared.circuits name).state = .closed →
    (d.world.shared.circuits name).state = .opened →
    (breaker config).Along (fun c => Unforced name c.world) (.init .empty) (pre ++ [l]) →
      GenuineEvidence (config name) name c.world.history := by
  intro h
  let sys := breaker fun _ => twoFailures
  let pre := attemptLabels "openai" 0 ++ [.drift 100000] ++ attemptLabels "openai" 1 ++
    failLabels 1 ++ [.step 0 (.error (.error "fetch failed"))]
  have hc : (sys.run (.init .empty) pre).isSome := by decide
  let c := (sys.run (.init .empty) pre).get hc
  have hd : (sys.next c (.step 0 (.ok ()))).isSome := rfl
  let d := ((sys.next c (.step 0 (.ok ()))).get hd).2
  have hhist : c.world.history = lateFailureHistory := rfl
  obtain ⟨calls, hlength, hnodup, hcalls, hclose⟩ := h (fun _ => twoFailures) "openai" pre
    (.step 0 (.ok ())) c d 0 0 false twoFailures .opened rfl rfl rfl rfl (by decide)
  obtain ⟨first, second, rfl⟩ := List.length_eq_two.mp hlength
  have hne : first.1 ≠ second.1 := by simpa using hnodup
  have hfirst := start_of_closedSince (hhist ▸ (hcalls first (by simp)).1)
  have hsecond := start_of_closedSince (hhist ▸ (hcalls second (by simp)).1)
  have hapart : first.2 - second.2 ≤ 60000 := hclose first (by simp) second (by simp)
  have hapart' : second.2 - first.2 ≤ 60000 := hclose second (by simp) first (by simp)
  rcases hfirst with ⟨hp, hnow⟩ | ⟨hp, hnow⟩ <;> rcases hsecond with ⟨hq, hnow'⟩ | ⟨hq, hnow'⟩
  · exact hne (hp.trans hq.symm)
  · omega
  · omega
  · exact hne (hp.trans hq.symm)

end CloudMesh.CircuitBreaker
