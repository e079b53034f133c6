import AthenaAI.Resilience.CircuitBreaker.History

/-!
# The transition counter

`closed_to_open_transitions` is the number of times the circuit was opened. A failure opens a closed
circuit at the threshold and a half-open circuit at once, and both are counted.

* `isTrip` and `isReopening` are these two kinds of steps, and `transitionCount_step` is what each
  operation does to the counter.
* `transitionCount_after`: along a run the counter grows by the steps from `CLOSED` to `OPEN` and by
  the failures recorded while half-open.
* `countsTrips_iff`: it counts the steps from `CLOSED` to `OPEN`, if and only if no failure is
  recorded while half-open. `failedProbe_not_countsTrips` is a run with such a failure.
-/

namespace CircuitBreaker

/-- The property `closed_to_open_transitions`. -/
def closedToOpenTransitions (cb : CircuitBreaker) : ℕ := cb.transitionCount

namespace HistoryStep

/-- The step finds the circuit closed and leaves it open. -/
def isTrip (t : HistoryStep) : Bool := t.before.state = .CLOSED && t.after.state = .OPEN

/-- The step records a failure while the circuit is half-open. -/
def isReopening (t : HistoryStep) : Bool :=
  t.before.state = .HALF_OPEN && t.event.1 = .recordFailure

end HistoryStep

open HistoryStep

/-- In every state of the run, `closed_to_open_transitions` is the number of steps from `CLOSED` to
`OPEN` that led there. -/
def CountsTrips (start : CircuitBreaker) (es : List (Op × ℚ)) : Prop :=
  ∀ pre, pre <+: es →
    (Run.after step start pre).closedToOpenTransitions = (Run.steps step start pre).countP isTrip

/-- `_transition_count` grows by one at a trip and by one at a reopening after a failed probe, and
at nothing else. -/
theorem transitionCount_step (cb : CircuitBreaker) (e : Op × ℚ) :
    (cb.step e).transitionCount = cb.transitionCount +
      ((if isTrip ⟨cb, e, cb.step e⟩ then 1 else 0) +
        if isReopening ⟨cb, e, cb.step e⟩ then 1 else 0) := by
  have hcase := cb.step_case e
  generalize cb.step e = cb' at hcase ⊢
  cases hcase with
  | trip _ hstate _ | reopen _ hstate => simp [isTrip, isReopening, hstate]
  -- the other steps do not open the circuit
  | count _ hstate _ | clear _ hstate | halfOpen _ _ hstate _ _ | probe _ hstate _
  | close _ hstate _ | ignore _ _ hstate _ | wait _ hstate _ | stay _ hstate =>
    simp [isTrip, isReopening, hstate]

/-- Along a run `_transition_count` grows by the trips and the reopenings together: the source
counts both. -/
theorem transitionCount_after (cb : CircuitBreaker) (es : List (Op × ℚ)) :
    (Run.after step cb es).transitionCount = cb.transitionCount +
      ((Run.steps step cb es).countP isTrip + (Run.steps step cb es).countP isReopening) := by
  induction es generalizing cb with
  | nil => rfl
  | cons e es ih =>
    rw [Run.after_cons, Run.steps_cons, ih, transitionCount_step, List.countP_cons,
      List.countP_cons]
    omega

/-- For every run of a new breaker: in all states of the run, `closed_to_open_transitions` is the
number of steps from `CLOSED` to `OPEN` (`CountsTrips`), if and only if the run records no
failure while half-open. `record_failure` counts the step from `HALF_OPEN` to `OPEN` with the
same counter. -/
theorem countsTrips_iff (failureThreshold halfOpenProbeCount : ℕ) (cooldownS : ℚ)
    (es : List (Op × ℚ)) :
    CountsTrips (init failureThreshold cooldownS halfOpenProbeCount) es ↔
      ∀ t ∈ Run.steps step (init failureThreshold cooldownS halfOpenProbeCount) es,
        ¬(t.before.state = .HALF_OPEN ∧ t.event.1 = .recordFailure) := by
  set start := init failureThreshold cooldownS halfOpenProbeCount
  have hcount (pre : List (Op × ℚ)) : (Run.after step start pre).closedToOpenTransitions =
      (Run.steps step start pre).countP isTrip + (Run.steps step start pre).countP isReopening :=
    (transitionCount_after start pre).trans (Nat.zero_add _)
  have hnone (pre : List (Op × ℚ)) : (Run.steps step start pre).countP isReopening = 0 ↔
      ∀ t ∈ Run.steps step start pre,
        ¬(t.before.state = .HALF_OPEN ∧ t.event.1 = .recordFailure) := by
    simp [List.countP_eq_zero, isReopening]
  constructor
  · intro hall
    have hend := hall es List.prefix_rfl
    rw [hcount] at hend
    exact (hnone es).mp (Nat.add_eq_left.mp hend)
  · rintro hguard pre ⟨post, rfl⟩
    rw [hcount, (hnone pre).mpr, Nat.add_zero]
    -- the steps that led to a state are steps of the run
    rw [Run.steps_append] at hguard
    exact fun t ht => hguard t (List.mem_append_left _ ht)

/-- A circuit trips, a probe fails a second later, and two transitions are counted, of which only
the first one was from `CLOSED` to `OPEN`. -/
theorem failedProbe_not_countsTrips :
    ¬CountsTrips (init 1 1 1)
      [(.recordFailure, 0), (.maybeTransitionToHalfOpen, 1), (.recordFailure, 1)] := by
  intro hcounts
  exact absurd (hcounts _ List.prefix_rfl) (by decide +kernel)

end CircuitBreaker
