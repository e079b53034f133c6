import AthenaAI.Python.Value
import AthenaAI.ToMathlib.Run
import Mathlib.Algebra.Order.Ring.Rat

/-!
# The circuit breaker

`athenai.resilience.circuit_breaker`. A `CircuitBreaker` counts the failures of one dependency,
rejects calls to it for `cooldownS` seconds after `failureThreshold` failures and then lets probes
through until `halfOpenProbeCount` of them have succeeded.

Every method takes the breaker's lock, and no method suspends while it holds it, so each one is a
single atomic function of the state. A method that reads `time.monotonic()` takes that reading as
`now`. Seconds are exact rationals. `window_s` is stored by the constructor and read by nothing, so
it has no field here.

`call` runs its argument `fn` between two such atomic parts, `beginCall` and `finishCall`; what
happens in between is the subject of `CircuitBreaker.Calls`.
-/

/-- The three states of the circuit. -/
inductive CircuitState where
  | CLOSED
  | OPEN
  | HALF_OPEN
  deriving DecidableEq, Repr

/-- The fields of a breaker. -/
structure CircuitBreaker where
  /-- The number of failures that trips a closed circuit. -/
  failureThreshold : ℕ
  /-- The seconds an open circuit rejects calls. -/
  cooldownS : ℚ
  /-- The number of successes that closes a half-open circuit. -/
  halfOpenProbeCount : ℕ
  /-- The state of the circuit. -/
  state : CircuitState
  /-- The failures counted towards the threshold. -/
  failureCount : ℕ
  /-- The clock reading when the circuit was last opened. -/
  openedAt : Option ℚ
  /-- The successes counted towards closing a half-open circuit. -/
  probeSuccesses : ℕ
  /-- The number of times the circuit was opened, from either of the other states. -/
  transitionCount : ℕ
  deriving DecidableEq

namespace CircuitBreaker

/-- The constructor: a closed circuit with nothing counted. -/
def init (failureThreshold : ℕ := 5) (cooldownS : ℚ := 30) (halfOpenProbeCount : ℕ := 1) :
    CircuitBreaker where
  failureThreshold := failureThreshold
  cooldownS := cooldownS
  halfOpenProbeCount := halfOpenProbeCount
  state := .CLOSED
  failureCount := 0
  openedAt := none
  probeSuccesses := 0
  transitionCount := 0

/-- `_maybe_transition_to_half_open`: an open circuit whose cooldown has elapsed becomes
half-open. -/
def maybeTransitionToHalfOpen (cb : CircuitBreaker) (now : ℚ) : CircuitBreaker :=
  match cb.state, cb.openedAt with
  | .OPEN, some openedAt =>
    if now - openedAt ≥ cb.cooldownS then { cb with state := .HALF_OPEN, probeSuccesses := 0 }
    else cb
  -- the source compares only if `_opened_at is not None`
  | _, _ => cb

/-- `record_failure`: a half-open circuit opens again, an open one ignores the failure, a closed
one counts it and opens at the threshold. -/
def recordFailure (cb : CircuitBreaker) (now : ℚ) : CircuitBreaker :=
  match cb.state with
  -- one failed probe is enough, whatever the threshold
  | .HALF_OPEN =>
    { cb with state := .OPEN, openedAt := some now, transitionCount := cb.transitionCount + 1 }
  | .OPEN => cb
  | .CLOSED =>
    let cb := { cb with failureCount := cb.failureCount + 1 }
    if cb.failureCount ≥ cb.failureThreshold then
      { cb with state := .OPEN, openedAt := some now, transitionCount := cb.transitionCount + 1 }
    else cb

/-- `record_success`: a half-open circuit counts it and closes once there are enough, a closed one
forgets its failures. -/
def recordSuccess (cb : CircuitBreaker) : CircuitBreaker :=
  match cb.state with
  | .HALF_OPEN =>
    let cb := { cb with probeSuccesses := cb.probeSuccesses + 1 }
    -- closing is not counted in `transitionCount`
    if cb.probeSuccesses ≥ cb.halfOpenProbeCount then
      { cb with state := .CLOSED, failureCount := 0, openedAt := none }
    else cb
  | .CLOSED => { cb with failureCount := 0 }
  | .OPEN => cb

/-- `is_open`: whether a caller should not call. -/
def isOpen (cb : CircuitBreaker) (now : ℚ) : Bool :=
  match cb.state with
  | .CLOSED => false
  | .OPEN =>
    match cb.openedAt with
    | some openedAt =>
      -- the source tests `_opened_at` for truth, and `0.0` is false
      !(openedAt ≠ 0 && now - openedAt ≥ cb.cooldownS)
    | none => true
  | .HALF_OPEN => false

/-- How the function that `call` runs ends. `cancelled` is an exception that is not an `Exception`,
such as `asyncio.CancelledError`: `call` lets it through without recording it. -/
inductive Outcome where
  | success
  | exception
  | cancelled
  deriving DecidableEq, Repr

/-- `call` up to the point where it runs `fn`, or raises instead. -/
def beginCall (cb : CircuitBreaker) (now : ℚ) : CircuitBreaker × Except PyExc Unit :=
  let cb := cb.maybeTransitionToHalfOpen now
  -- a half-open circuit lets everything through
  if cb.state = .OPEN then
    (cb, .error (.of .CircuitOpenError "Circuit breaker is OPEN".toList))
  else (cb, .ok ())

/-- `call` from the point where `fn` has ended. -/
def finishCall (cb : CircuitBreaker) (outcome : Outcome) (now : ℚ) : CircuitBreaker :=
  match outcome with
  | .success => cb.recordSuccess
  | .exception => cb.recordFailure now
  -- `except Exception` does not see it
  | .cancelled => cb

/-! ## The methods state by state -/

section Spec

variable {cb : CircuitBreaker} {now : ℚ}

/-- One equation for each state that `_maybe_transition_to_half_open`, `record_failure` and
`record_success` tell apart. -/
theorem maybeTransitionToHalfOpen_of_ne_open (h : cb.state ≠ .OPEN) :
    cb.maybeTransitionToHalfOpen now = cb := by
  unfold maybeTransitionToHalfOpen
  split
  · contradiction
  · rfl

theorem maybeTransitionToHalfOpen_of_open {openedAt : ℚ} (h : cb.state = .OPEN)
    (ht : cb.openedAt = some openedAt) :
    cb.maybeTransitionToHalfOpen now =
      if cb.cooldownS ≤ now - openedAt then { cb with state := .HALF_OPEN, probeSuccesses := 0 }
      else cb := by
  unfold maybeTransitionToHalfOpen
  rw [h, ht]

/-- `beginCall` raises `CircuitOpenError` if and only if the circuit is still open after
`maybeTransitionToHalfOpen`. -/
theorem beginCall_snd (cb : CircuitBreaker) (now : ℚ) :
    (cb.beginCall now).2 =
      if (cb.maybeTransitionToHalfOpen now).state = .OPEN then
        .error (.of .CircuitOpenError "Circuit breaker is OPEN".toList)
      else .ok () :=
  apply_ite Prod.snd _ _ _

theorem recordFailure_of_open (h : cb.state = .OPEN) : cb.recordFailure now = cb := by
  unfold recordFailure
  rw [h]

theorem recordFailure_of_halfOpen (h : cb.state = .HALF_OPEN) :
    cb.recordFailure now =
      { cb with
        state := .OPEN, openedAt := some now, transitionCount := cb.transitionCount + 1 } := by
  unfold recordFailure
  rw [h]

theorem recordFailure_of_closed (h : cb.state = .CLOSED) :
    cb.recordFailure now =
      if cb.failureThreshold ≤ cb.failureCount + 1 then
        { cb with
          state := .OPEN, openedAt := some now, failureCount := cb.failureCount + 1,
          transitionCount := cb.transitionCount + 1 }
      else { cb with failureCount := cb.failureCount + 1 } := by
  unfold recordFailure
  rw [h]

theorem recordSuccess_of_open (h : cb.state = .OPEN) : cb.recordSuccess = cb := by
  unfold recordSuccess
  rw [h]

theorem recordSuccess_of_halfOpen (h : cb.state = .HALF_OPEN) :
    cb.recordSuccess =
      if cb.halfOpenProbeCount ≤ cb.probeSuccesses + 1 then
        { cb with
          state := .CLOSED, probeSuccesses := cb.probeSuccesses + 1, failureCount := 0,
          openedAt := none }
      else { cb with probeSuccesses := cb.probeSuccesses + 1 } := by
  unfold recordSuccess
  rw [h]

theorem recordSuccess_of_closed (h : cb.state = .CLOSED) :
    cb.recordSuccess = { cb with failureCount := 0 } := by
  unfold recordSuccess
  rw [h]

end Spec

/-! ## Operations -/

/-- The methods that can change a breaker. -/
inductive Op where
  | recordFailure
  | recordSuccess
  | maybeTransitionToHalfOpen
  deriving DecidableEq, Repr

/-- One operation, with the clock reading it takes. -/
def step (cb : CircuitBreaker) (e : Op × ℚ) : CircuitBreaker :=
  match e.1 with
  | .recordFailure => cb.recordFailure e.2
  | .recordSuccess => cb.recordSuccess
  | .maybeTransitionToHalfOpen => cb.maybeTransitionToHalfOpen e.2

/-- What an operation does, by the state it finds and the guard it meets. -/
inductive StepCase (cb : CircuitBreaker) : Op × ℚ → CircuitBreaker → Prop
  /-- A closed circuit counts a failure below the threshold. -/
  | count (now : ℚ) (hstate : cb.state = .CLOSED)
      (hbelow : cb.failureCount + 1 < cb.failureThreshold) :
      StepCase cb (.recordFailure, now) { cb with failureCount := cb.failureCount + 1 }
  /-- A closed circuit opens at the threshold. -/
  | trip (now : ℚ) (hstate : cb.state = .CLOSED)
      (hreached : cb.failureThreshold ≤ cb.failureCount + 1) :
      StepCase cb (.recordFailure, now)
        { cb with
          state := .OPEN, openedAt := some now, failureCount := cb.failureCount + 1,
          transitionCount := cb.transitionCount + 1 }
  /-- A success clears the failures of a closed circuit. -/
  | clear (now : ℚ) (hstate : cb.state = .CLOSED) :
      StepCase cb (.recordSuccess, now) { cb with failureCount := 0 }
  /-- An open circuit becomes half-open after the cooldown. -/
  | halfOpen (now openedAt : ℚ) (hstate : cb.state = .OPEN) (hat : cb.openedAt = some openedAt)
      (helapsed : cb.cooldownS ≤ now - openedAt) :
      StepCase cb (.maybeTransitionToHalfOpen, now)
        { cb with state := .HALF_OPEN, probeSuccesses := 0 }
  /-- A failure opens a half-open circuit again. -/
  | reopen (now : ℚ) (hstate : cb.state = .HALF_OPEN) :
      StepCase cb (.recordFailure, now)
        { cb with
          state := .OPEN, openedAt := some now, transitionCount := cb.transitionCount + 1 }
  /-- A half-open circuit counts a success short of the required number. -/
  | probe (now : ℚ) (hstate : cb.state = .HALF_OPEN)
      (hbelow : cb.probeSuccesses + 1 < cb.halfOpenProbeCount) :
      StepCase cb (.recordSuccess, now) { cb with probeSuccesses := cb.probeSuccesses + 1 }
  /-- A half-open circuit closes at the required number of successes. -/
  | close (now : ℚ) (hstate : cb.state = .HALF_OPEN)
      (hreached : cb.halfOpenProbeCount ≤ cb.probeSuccesses + 1) :
      StepCase cb (.recordSuccess, now)
        { cb with
          state := .CLOSED, probeSuccesses := cb.probeSuccesses + 1, failureCount := 0,
          openedAt := none }
  /-- An open circuit ignores outcomes. -/
  | ignore (op : Op) (now : ℚ) (hstate : cb.state = .OPEN) (hop : op ≠ .maybeTransitionToHalfOpen) :
      StepCase cb (op, now) cb
  /-- An open circuit stays open during the cooldown. -/
  | wait (now : ℚ) (hstate : cb.state = .OPEN)
      (hcooling : ∀ openedAt, cb.openedAt = some openedAt → now - openedAt < cb.cooldownS) :
      StepCase cb (.maybeTransitionToHalfOpen, now) cb
  /-- Only an open circuit can become half-open. -/
  | stay (now : ℚ) (hstate : cb.state ≠ .OPEN) : StepCase cb (.maybeTransitionToHalfOpen, now) cb

/-- `StepCase` lists all that an operation can do: every later proof about steps is a case split on
it and does not unfold the operations. -/
theorem step_case (cb : CircuitBreaker) (e : Op × ℚ) : StepCase cb e (cb.step e) := by
  obtain ⟨op, now⟩ := e
  -- by the operation and the state it finds, as the methods branch
  cases op with
  | recordFailure =>
    change StepCase cb (.recordFailure, now) (cb.recordFailure now)
    cases hs : cb.state with
    | CLOSED =>
      rw [recordFailure_of_closed hs]
      split_ifs with hreached
      · exact .trip now hs hreached
      · exact .count now hs (by omega)
    | OPEN => rw [recordFailure_of_open hs]; exact .ignore _ now hs (by decide)
    | HALF_OPEN => rw [recordFailure_of_halfOpen hs]; exact .reopen now hs
  | recordSuccess =>
    change StepCase cb (.recordSuccess, now) cb.recordSuccess
    cases hs : cb.state with
    | CLOSED => rw [recordSuccess_of_closed hs]; exact .clear now hs
    | OPEN => rw [recordSuccess_of_open hs]; exact .ignore _ now hs (by decide)
    | HALF_OPEN =>
      rw [recordSuccess_of_halfOpen hs]
      split_ifs with hreached
      · exact .close now hs hreached
      · exact .probe now hs (by omega)
  | maybeTransitionToHalfOpen =>
    change StepCase cb (.maybeTransitionToHalfOpen, now) (cb.maybeTransitionToHalfOpen now)
    by_cases hs : cb.state = .OPEN
    · cases hat : cb.openedAt with
      -- this does not happen in a run, but the method allows for it
      | none =>
        have hidle : cb.maybeTransitionToHalfOpen now = cb := by
          simp [maybeTransitionToHalfOpen, hs, hat]
        rw [hidle]
        exact .wait now hs fun t ht => by rw [hat] at ht; cases ht
      | some openedAt =>
        rw [maybeTransitionToHalfOpen_of_open hs hat]
        split_ifs with helapsed
        · exact .halfOpen now openedAt hs hat helapsed
        · refine .wait now hs fun t ht => ?_
          obtain rfl : openedAt = t := Option.some.inj (hat.symm.trans ht)
          exact not_le.mp helapsed
    · rw [maybeTransitionToHalfOpen_of_ne_open hs]
      exact .stay now hs

/-- No operation changes the threshold, the cooldown or the probe count. -/
theorem step_config (cb : CircuitBreaker) (e : Op × ℚ) :
    (cb.step e).failureThreshold = cb.failureThreshold ∧
      (cb.step e).cooldownS = cb.cooldownS ∧
      (cb.step e).halfOpenProbeCount = cb.halfOpenProbeCount := by
  have h := cb.step_case e
  generalize cb.step e = cb' at h ⊢
  cases h <;> exact ⟨rfl, rfl, rfl⟩

end CircuitBreaker
