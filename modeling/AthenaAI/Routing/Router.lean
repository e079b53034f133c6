import AthenaAI.Resilience.CircuitBreaker.Calls
import AthenaAI.Routing.Scorer

/-!
# Circuits and routing

`athenai.routing.router`. The router holds one circuit breaker a model role and passes over the
roles whose circuit is open.

`isCircuitOpen` and `CircuitBreaker.call` look at the cooldown each for itself.
`isCircuitOpen_iff_rejects` says when they agree: always, except that a circuit opened when the
clock read `0` is open for the router even when its cooldown has elapsed.

* `Rejects` is the answer of the breaker, an invocation that would raise `CircuitOpenError`;
  `rejects_iff` reads it off the state after the check.
* `StuckOpen` is the exception. `isOpen_iff_rejects` is the comparison for one breaker in whatever
  state, and `exists_event_of_openedAt` says how a breaker comes to have opened at `0`.
-/

/-- The router. -/
structure ModelRouter where
  /-- The models to choose from. -/
  catalog : List ModelMetadata
  /-- The breakers, by role. -/
  breakers : List (PyStr × CircuitBreaker) := []

namespace ModelRouter

open CircuitBreaker

/-- `ModelRouter._is_circuit_open`. -/
def isCircuitOpen (router : ModelRouter) (role : PyStr) (now : ℚ) : Bool :=
  match router.breakers.lookup role with
  | none => false
  | some breaker => breaker.state = .OPEN && breaker.isOpen now

/-- A call through the breaker would raise `CircuitOpenError`, without running its function. -/
def Rejects (breaker : CircuitBreaker) (now : ℚ) : Prop :=
  (breaker.beginCall now).2 = .error (.of .CircuitOpenError "Circuit breaker is OPEN".toList)

/-- The circuit was opened when the clock read `0`, and its cooldown has elapsed. -/
def StuckOpen (breaker : CircuitBreaker) (now : ℚ) : Prop :=
  breaker.state = .OPEN ∧ breaker.openedAt = some 0 ∧ breaker.cooldownS ≤ now

variable {router : ModelRouter} {role : PyStr} {breaker : CircuitBreaker} {now : ℚ}

/-- `Rejects` says that `call` would raise: the circuit is still open after
`maybeTransitionToHalfOpen`. -/
theorem rejects_iff :
    Rejects breaker now ↔ (breaker.maybeTransitionToHalfOpen now).state = .OPEN := by
  rw [Rejects, beginCall_snd]
  split
  case isTrue hopen => exact iff_of_true rfl hopen
  case isFalse hopen => exact iff_of_false nofun hopen

/-- The router and the breaker agree on every circuit that is not `StuckOpen`: one opened at the
clock reading zero whose cooldown has elapsed. -/
theorem isOpen_iff_rejects :
    ((breaker.state = .OPEN ∧ breaker.isOpen now = true) ↔ Rejects breaker now) ↔
      ¬StuckOpen breaker now := by
  rw [rejects_iff]
  by_cases hstate : breaker.state = .OPEN
  · cases hat : breaker.openedAt with
    | none =>
      have hsame : breaker.maybeTransitionToHalfOpen now = breaker := by
        simp [maybeTransitionToHalfOpen, hstate, hat]
      rw [hsame]
      simp [isOpen, StuckOpen, hstate, hat]
    | some openedAt =>
      rw [maybeTransitionToHalfOpen_of_open hstate hat]
      by_cases hzero : openedAt = 0
      · by_cases helapsed : breaker.cooldownS ≤ now
        · simp [isOpen, StuckOpen, hstate, hat, hzero, helapsed]
        · simp [isOpen, StuckOpen, hstate, hat, hzero, helapsed]
      · by_cases helapsed : breaker.cooldownS ≤ now - openedAt
        · simp [isOpen, StuckOpen, hstate, hat, hzero, helapsed]
        · simp [isOpen, StuckOpen, hstate, hat, hzero, helapsed]
  -- neither of them holds back a call through another circuit
  · rw [maybeTransitionToHalfOpen_of_ne_open hstate]
    simp [StuckOpen, hstate]

/-- A breaker after some events. -/
def breakerAfter (cb : CircuitBreaker) (es : List (Event × ℚ)) : CircuitBreaker :=
  (Run.after CallSystem.step (.start cb) es).breaker

/-- A circuit is opened at the clock reading of one of its events, so it opened at zero only if an
event was at zero. -/
theorem exists_event_of_openedAt {cb : CircuitBreaker} (hcb : cb.openedAt = none)
    (es : List (Event × ℚ)) {openedAt : ℚ} (hat : (breakerAfter cb es).openedAt = some openedAt) :
    ∃ e ∈ es, e.2 = openedAt := by
  unfold breakerAfter at hat
  induction es using List.reverseRecOn generalizing openedAt with
  | nil => exact nomatch hcb.symm.trans hat
  | append_singleton es e ih =>
    rw [Run.after_concat] at hat
    generalize Run.after CallSystem.step (.start cb) es = s at hat ih
    -- the last event leaves the time as it was or notes its own
    have hcases : (s.step e).breaker.openedAt = s.breaker.openedAt ∨
        (s.step e).breaker.openedAt = none ∨ (s.step e).breaker.openedAt = some e.2 := by
      rcases s.breaker_step_case e with hsame | ⟨op, hcase⟩
      · exact Or.inl (congrArg _ hsame)
      · generalize (s.step e).breaker = cb' at hcase ⊢
        cases hcase <;> simp
    rcases hcases with hsame | hnone | hnow
    · obtain ⟨e', he', heq⟩ := ih (hsame ▸ hat)
      exact ⟨e', List.mem_append_left _ he', heq⟩
    · rw [hnone] at hat
      exact nomatch hat
    · rw [hnow] at hat
      exact ⟨e, List.mem_append_right _ (List.mem_singleton_self e), Option.some.inj hat⟩

/-- After any history of the breaker of a role, at any time, the router holds back exactly the calls
that the breaker would reject (`Rejects`), if and only if the breaker is not `StuckOpen`: opened at
the reading `0`, which `_is_circuit_open` takes for no reading at all, with its cooldown elapsed. So
they agree throughout a history in which the clock never reads `0`. -/
theorem isCircuitOpen_iff_rejects {failureThreshold halfOpenProbeCount : ℕ} {cooldownS : ℚ}
    (es : List (Event × ℚ)) (now : ℚ)
    (hrole : router.breakers.lookup role =
      some (breakerAfter (init failureThreshold cooldownS halfOpenProbeCount) es)) :
    let breaker := breakerAfter (init failureThreshold cooldownS halfOpenProbeCount) es
    ((router.isCircuitOpen role now = true ↔ Rejects breaker now) ↔ ¬StuckOpen breaker now) ∧
      ((∀ e ∈ es, e.2 ≠ 0) → (router.isCircuitOpen role now = true ↔ Rejects breaker now)) := by
  intro breaker
  have hrouter : router.isCircuitOpen role now = true ↔
      breaker.state = .OPEN ∧ breaker.isOpen now = true := by
    rw [isCircuitOpen, hrole, Bool.and_eq_true, decide_eq_true_iff]
  rw [hrouter]
  refine ⟨isOpen_iff_rejects, fun hclock => isOpen_iff_rejects.mpr ?_⟩
  rintro ⟨-, hat, -⟩
  have hnew : (init failureThreshold cooldownS halfOpenProbeCount).openedAt = none := rfl
  obtain ⟨e, he, hzero⟩ := exists_event_of_openedAt hnew es hat
  exact hclock e he hzero

/-- A breaker with a cooldown of one second that tripped when the clock read `now`. -/
def trippedAt (now : ℚ) : CircuitBreaker :=
  breakerAfter (init 1 1 1) [(.direct .recordFailure, now)]

/-- A router with one model behind that breaker. -/
def routerOf (breaker : CircuitBreaker) : ModelRouter where
  catalog := [⟨"fast".toList, 1/2, 1/100, 200, true⟩]
  breakers := [("fast".toList, breaker)]

theorem lookup_routerOf (breaker : CircuitBreaker) :
    (routerOf breaker).breakers.lookup "fast".toList = some breaker := rfl

/-- A second after a breaker tripped at the reading `0` it would let a call through, and the router
still takes the circuit for open: `0.0` is false, so the time since then is not looked at. -/
theorem trippedAt_zero_not_agree :
    ¬((routerOf (trippedAt 0)).isCircuitOpen "fast".toList 1 = true ↔
      Rejects (trippedAt 0) 1) := by
  intro hagree
  have hrejects : Rejects (trippedAt 0) 1 := hagree.mp (by decide +kernel)
  rw [rejects_iff] at hrejects
  exact absurd hrejects (by decide +kernel)

/-- A breaker that opened at a time other than zero is not `StuckOpen`: here it opened at 5, and the
clock reads 6. -/
theorem not_stuckOpen_trippedAt_five : ¬StuckOpen (trippedAt 5) 6 := by
  rintro ⟨-, hat, -⟩
  have hopened : (trippedAt 5).openedAt = some 5 := by decide +kernel
  rw [hopened] at hat
  exact absurd (Option.some.inj hat) (by norm_num)

/-- `isCircuitOpen_iff_rejects` for a breaker that tripped at the reading `5`: it is not stuck, and
the clock never read `0`. -/
theorem isCircuitOpen_iff_rejects_trippedAt_five :
    (((routerOf (trippedAt 5)).isCircuitOpen "fast".toList 6 = true ↔ Rejects (trippedAt 5) 6) ↔
        ¬StuckOpen (trippedAt 5) 6) ∧ ¬StuckOpen (trippedAt 5) 6 ∧
      ((routerOf (trippedAt 5)).isCircuitOpen "fast".toList 6 = true ↔
        Rejects (trippedAt 5) 6) := by
  obtain ⟨hstuck, hclock⟩ :=
    isCircuitOpen_iff_rejects [(.direct .recordFailure, 5)] 6 (lookup_routerOf (trippedAt 5))
  exact ⟨hstuck, not_stuckOpen_trippedAt_five, hclock (by simp)⟩

end ModelRouter
