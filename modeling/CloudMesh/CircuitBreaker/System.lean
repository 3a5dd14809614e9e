import CloudMesh.CircuitBreaker.Scripts
import CloudMesh.Concurrent.Transcript

/-!
# Circuits under concurrent calls

Any number of processes call through the breaker, force circuits open and reset them, against one
Redis whose clock ticks between their commands. A call is its `ATTEMPT`, the run of `fn` and its
`REPORT`, with the `Date.now()` of its start as `now`.

## Main definitions

- `breaker` — the system
- `Rule` — what a process has done when it issues a command
- `Touches` — what one step does to one circuit
-/

namespace CloudMesh.CircuitBreaker

open Concurrent

inductive Cmd
  | dateNow
  | evalAttempt (name : String) (now : ℤ) (config : CircuitBreakerConfig)
  | evalReport (name : String) (now : ℤ) (success : Bool) (config : CircuitBreakerConfig)
  | hset (name : String) (fields : CircuitHash)
  | expire (name : String)
  | del (name : String)
  | fn

abbrev sig : Signature where
  Cmd := Cmd
  Ans
    | .dateNow => ℤ
    | .evalAttempt .. => Bool × CircuitState
    | .evalReport .. => CircuitState
    | .hset .. | .expire _ | .del _ => Unit
    | .fn => Except Thrown Unit

/-- Redis, with its own clock. -/
structure Store where
  clock : ℤ
  circuits : String → CircuitKey

def Store.empty : Store := ⟨0, fun _ => .missing⟩

def Store.set (s : Store) (name : String) (key : CircuitKey) : Store :=
  { s with circuits := Function.update s.circuits name key }

@[simp] theorem Store.set_circuits_self (s : Store) (name : String) (key : CircuitKey) :
    (s.set name key).circuits name = key := Function.update_self ..

theorem Store.set_circuits_of_ne (s : Store) {name other : String} (key : CircuitKey)
    (h : other ≠ name) : (s.set name key).circuits other = s.circuits other :=
  Function.update_of_ne h ..

/-- Time passes, and the keys whose time to live is over are gone. -/
def Store.tick (s : Store) (d : ℕ) : Store :=
  ⟨s.clock + d, fun name => (s.circuits name).purge (s.clock + d)⟩

abbrev Pid := ℕ

/-- `i` is the outcome of `fn`; the other commands ignore it. -/
def exec (_ : Pid) (c : sig.Cmd) (i : Except Thrown Unit) (s : Store) :
    Option (sig.Ans c × Store) :=
  match c with
  | .dateNow => some (s.clock, s)
  | .evalAttempt name now config =>
    let out := attemptScript config s.clock now (s.circuits name)
    some (out.1, s.set name out.2)
  | .evalReport name now success config =>
    let out := reportScript config s.clock now success (s.circuits name)
    some (out.1, s.set name out.2)
  | .hset name fields => some ((), s.set name ((s.circuits name).hset fields))
  | .expire name => some ((), s.set name ((s.circuits name).expire s.clock))
  | .del name => some ((), s.set name .missing)
  | .fn => some (i, s)

inductive Op
  | withCircuitBreaker (name : String)
  | forceOpenCircuit (name : String)
  | resetCircuit (name : String)

/-- Issue one command; no command fails here. -/
def command (c : sig.Cmd) : Handler sig Thrown (sig.Ans c) := Handler.call c

def redis : CircuitRedis (Handler sig Thrown) where
  evalAttempt name now config := command (.evalAttempt name now config)
  evalReport name now success config := command (.evalReport name now success config)

def forceOpenCircuit (name : String) : Handler sig Thrown Unit := do
  let now ← command .dateNow
  command (.hset name (forceOpenFields now))
  command (.expire name)

def resetCircuit (name : String) : Handler sig Thrown Unit :=
  command (.del name)

/-- The wrapped function. -/
def fn : Handler sig Thrown Unit := ExceptT.mk (.issue Cmd.fn .done)

/-- A call with the default `now`. -/
def guardedCall (config : String → CircuitBreakerConfig) (name : String) :
    Handler sig Thrown Unit := do
  let now ← command .dateNow
  withCircuitBreaker redis name (config name) fn now

def code (config : String → CircuitBreakerConfig) (_ : Pid) :
    Op → Program sig (Except Thrown Unit)
  | .withCircuitBreaker name => (guardedCall config name).run
  | .forceOpenCircuit name => (forceOpenCircuit name).run
  | .resetCircuit name => (resetCircuit name).run

def breaker (config : String → CircuitBreakerConfig) :
    System sig Pid Store (Except Thrown Unit) ℕ Op (Except Thrown Unit) where
  exec := exec
  drift d s := some (s.tick d)
  code := code config

theorem guardedCall_run (config : String → CircuitBreakerConfig) (name : String) :
    (guardedCall config name).run = .issue .dateNow fun (now : ℤ) =>
      .issue (.evalAttempt name now (config name)) fun (answer : Bool × CircuitState) =>
        if answer.1 then
          .issue .fn fun (result : Except Thrown Unit) =>
            .issue (.evalReport name now result.isOk (config name)) fun _ => .done result
        else .done (.error (.circuitOpen name)) := by
  refine congrArg (@Program.issue sig _ Cmd.dateNow) (funext fun now => ?_)
  refine congrArg (@Program.issue sig _ _) (funext fun answer => ?_)
  obtain ⟨allowed, state⟩ := answer
  cases allowed with
  | false => rfl
  | true =>
    refine congrArg (@Program.issue sig _ Cmd.fn) (funext fun result => ?_)
    cases result with
    | ok a => rfl
    | error e => rfl

/-! ## What the processes do -/

abbrev BreakerWorld := World sig Pid Store

abbrev BreakerEvent := Event sig Pid

abbrev BreakerConfig := Config sig Pid Store Op (Except Thrown Unit)

abbrev BreakerLabel := Label Pid (Except Thrown Unit) ℕ Op

/-- What a process has done when it issues a command. -/
def Rule (config : String → CircuitBreakerConfig) (_ : Pid) (_ : Op) (t : Transcript sig) :
    Cmd → Prop
  | .evalAttempt name now cfg => cfg = config name ∧ t = [⟨.dateNow, now⟩]
  | .evalReport name now _ cfg => cfg = config name ∧
      (∃ state, ⟨.evalAttempt name now cfg, (true, state)⟩ ∈ t) ∧ (∃ r, ⟨.fn, r⟩ ∈ t) ∧
        ⟨.dateNow, now⟩ ∈ t
  | .hset _ fields => ∃ now : ℤ, t = [⟨.dateNow, now⟩] ∧ fields = forceOpenFields now
  | _ => True

/-- Every call that was let through has been reported. -/
def AllReported (_ : Pid) (_ : Op) (_ : Except Thrown Unit) (t : Transcript sig) : Prop :=
  ∀ name now config state, ⟨.evalAttempt name now config, (true, state)⟩ ∈ t →
    ∃ success r, ⟨.evalReport name now success config, r⟩ ∈ t

theorem allReported_of_no_admission {p : Pid} {op : Op} {r : Except Thrown Unit}
    {t : Transcript sig}
    (h : ∀ name now config state, ⟨.evalAttempt name now config, (true, state)⟩ ∉ t) :
    AllReported p op r t :=
  fun name now config state ha => absurd ha (h name now config state)

theorem obeys (config : String → CircuitBreakerConfig) :
    (breaker config).Obeys (Rule config) AllReported := by
  intro p op
  cases op with
  | withCircuitBreaker name =>
    show (guardedCall config name).run.Follows _ _ _
    rw [guardedCall_run]
    refine ⟨trivial, fun now => ⟨⟨rfl, rfl⟩, fun answer => ?_⟩⟩
    obtain ⟨allowed, state⟩ := answer
    cases allowed with
    | false => exact allReported_of_no_admission (by simp)
    | true =>
      refine ⟨trivial, fun result => ⟨⟨rfl, ⟨state, by simp⟩, ⟨result, by simp⟩, by simp⟩,
        fun r => ?_⟩⟩
      intro name' now' config' state' ha
      simp only [List.mem_cons, Sigma.mk.injEq, reduceCtorEq, false_and, false_or,
        List.not_mem_nil, or_false] at ha
      obtain ⟨hcmd, -⟩ := ha
      cases hcmd
      exact ⟨result.isOk, r, List.mem_cons_self⟩
  | forceOpenCircuit name =>
    exact ⟨trivial, fun now => ⟨⟨now, rfl, rfl⟩, fun _ => ⟨trivial, fun _ =>
      allReported_of_no_admission (by simp)⟩⟩⟩
  | resetCircuit name => exact ⟨trivial, fun _ => allReported_of_no_admission (by simp)⟩

/-- Every `Date.now()` of the run lies in the past. -/
def ClockRead (w : BreakerWorld) : Prop :=
  ∀ p (now : ℤ), ⟨p, .dateNow, now⟩ ∈ w.history → now ≤ w.shared.clock

/-! ## What one step does to one circuit -/

/-- The commands on the key of `name`. -/
def OnKey (name : String) : Cmd → Prop
  | .evalAttempt n .. | .evalReport n .. | .hset n _ | .expire n | .del n => n = name
  | .dateNow | .fn => False

/-- `p` was admitted by an `ATTEMPT` on `name` that answered `state`. -/
def Admitted (name : String) (now : ℤ) (config : CircuitBreakerConfig) (state : CircuitState)
    (p : Pid) (h : List BreakerEvent) : Prop :=
  ⟨p, .evalAttempt name now config, (true, state)⟩ ∈ h

/-- A step `a` from `w` and the key of `name` it leaves. -/
inductive Touches (config : String → CircuitBreakerConfig) (name : String) (w : BreakerWorld) :
    Action sig Pid ℕ Op → CircuitKey → Prop
  | attempt {p now answer key'} (hfirst : transcript p w.history = [⟨.dateNow, now⟩])
      (h : Attempted (config name) now (w.shared.circuits name) answer key') :
      Touches config name w (.command ⟨p, .evalAttempt name now (config name), answer⟩) key'
  | report {p now success answer key'} (hadm : ∃ state, Admitted name now (config name) state p
        w.history) (hfn : ∃ r, (⟨p, .fn, r⟩ : BreakerEvent) ∈ w.history)
      (h : Reported (config name) now (w.shared.circuits name) success key') :
      Touches config name w (.command ⟨p, .evalReport name now success (config name), answer⟩) key'
  | force {p now} : Touches config name w (.command ⟨p, .hset name (forceOpenFields now), ()⟩)
      ((w.shared.circuits name).hset (forceOpenFields now))
  | expire {p} : Touches config name w (.command ⟨p, .expire name, ()⟩)
      ((w.shared.circuits name).expire w.shared.clock)
  | reset {p} : Touches config name w (.command ⟨p, .del name, ()⟩) .missing
  | tick {d} : Touches config name w (.drift d)
      ((w.shared.circuits name).purge (w.shared.clock + d))
  | elsewhere {e} (h : ¬OnKey name e.cmd) : Touches config name w (.command e)
      (w.shared.circuits name)
  | start {p op} : Touches config name w (.start p op) (w.shared.circuits name)

variable {config : String → CircuitBreakerConfig} {c d : BreakerConfig}
  {a : Action sig Pid ℕ Op} {ls : List BreakerLabel}

theorem exec_clock (p : Pid) {cmd : sig.Cmd} {i : Except Thrown Unit} {s s' : Store}
    {r : sig.Ans cmd} (h : exec p cmd i s = some (r, s')) : s'.clock = s.clock := by
  cases cmd <;> cases h <;> rfl

/-- A command on another key leaves the circuit as it is. -/
theorem circuits_of_not_onKey (p : Pid) {name : String} {cmd : sig.Cmd} {i : Except Thrown Unit}
    {s s' : Store} {r : sig.Ans cmd} (hx : exec p cmd i s = some (r, s')) (h : ¬OnKey name cmd) :
    s'.circuits name = s.circuits name := by
  cases cmd with
  | dateNow | fn => cases hx; rfl
  | evalAttempt | evalReport | hset | expire | del =>
    cases hx
    exact Store.set_circuits_of_ne _ _ (Ne.symm h)

theorem touches_of_steps (name : String)
    (hconf : System.Conforms (Rule config) AllReported c) (h : (breaker config).Steps c a d) :
    Touches config name c.world a (d.world.shared.circuits name) := by
  cases h with
  | start => exact .start
  | drift hx => cases hx; exact .tick
  | @command p i P cmd k r s hp hk hx =>
    have hrule := hconf.allowed hp hk
    by_cases hon : OnKey name cmd
    · cases cmd with
      | dateNow | fn => exact hon.elim
      | evalAttempt n now cfg =>
        obtain rfl : n = name := hon
        obtain ⟨rfl, hfirst⟩ := hrule
        cases hx
        exact .attempt hfirst (by simpa using attempted)
      | evalReport n now success cfg =>
        obtain rfl : n = name := hon
        obtain ⟨rfl, ⟨state, hadm⟩, ⟨r, hfn⟩, -⟩ := hrule
        cases hx
        exact .report ⟨state, mem_transcript.mp hadm⟩ ⟨r, mem_transcript.mp hfn⟩
          (by simpa using reported)
      | hset n fields =>
        obtain rfl : n = name := hon
        obtain ⟨now, -, rfl⟩ := hrule
        cases hx
        simpa using Touches.force
      | expire n =>
        obtain rfl : n = name := hon
        cases hx
        simpa using Touches.expire
      | del n =>
        obtain rfl : n = name := hon
        cases hx
        simpa using Touches.reset
    · rw [World.after_shared, circuits_of_not_onKey p hx hon]
      exact .elsewhere hon

theorem clock_le_of_steps (h : (breaker config).Steps c a d) :
    c.world.shared.clock ≤ d.world.shared.clock := by
  cases h with
  | start => exact le_rfl
  | drift hx => cases hx; exact le_add_of_nonneg_right (Int.natCast_nonneg _)
  | @command p _ _ _ _ _ _ _ _ hx => exact (exec_clock p hx).ge

theorem clockRead_step (hi : ClockRead c.world) (h : (breaker config).Steps c a d) :
    ClockRead d.world := by
  have hle := clock_le_of_steps h
  intro q now hq
  cases h with
  | start => exact hi q now hq
  | drift => exact (hi q now hq).trans hle
  | @command p i P cmd k r s hp hk hx =>
    rcases List.mem_cons.mp hq with he | hq
    · cases he
      cases hx
      exact le_rfl
    · exact (hi q now hq).trans hle

end CloudMesh.CircuitBreaker
