import AthenaAI.Resilience.CircuitBreaker.Defs

/-!
# The state of a breaker is the one its history demands

A history of a breaker is the list of steps it has taken, each with the breaker before and after
it. The quantities a history determines are defined on the history alone:

* `closedFailures tr`: the failures recorded while closed since the start, the latest success
  recorded while closed or the latest closing, whichever is last;
* `lastOpened tr`: the time of the latest entry into `OPEN`;
* `probeSuccessesSince tr`: the successes recorded since the latest entry into `HALF_OPEN`.

`Tracks tr cb` says that the counters and the timestamp of `cb` are those quantities. Every
operation preserves it (`tracks_step`), so it holds along every run, and `steps_follow_history`
reads off that each transition is the one the history calls for.
-/

namespace CircuitBreaker

/-- A step of a breaker: one operation with its clock reading, and the breaker around it. -/
abbrev HistoryStep := Run.Step CircuitBreaker (Op × ℚ)

/-! ## What a history says -/

namespace HistoryStep

/-- The step enters the state `st`. -/
def enters (t : HistoryStep) (st : CircuitState) : Bool :=
  t.before.state ≠ st && t.after.state = st

/-- The step records a failure while the circuit is closed. -/
def isClosedFailure (t : HistoryStep) : Bool :=
  t.before.state = .CLOSED && t.event.1 = .recordFailure

/-- The step restarts the failure count: a success recorded while closed, or closing. -/
def restartsFailures (t : HistoryStep) : Bool :=
  (t.before.state = .CLOSED && t.event.1 = .recordSuccess) || t.enters .CLOSED

end HistoryStep

open HistoryStep

/-- The failures recorded while closed since the count last restarted. -/
def closedFailures (tr : List HistoryStep) : ℕ :=
  tr.countSince restartsFailures isClosedFailure

/-- The time of the latest entry into `OPEN`. -/
def lastOpened (tr : List HistoryStep) : Option ℚ :=
  tr.latest fun t => if t.enters .OPEN then some t.event.2 else none

/-- The successes recorded since the latest entry into `HALF_OPEN`. -/
def probeSuccessesSince (tr : List HistoryStep) : ℕ :=
  tr.countSince (fun t => t.enters .HALF_OPEN) fun t => t.event.1 = .recordSuccess

/-- The step `t`, taken after the history `tr`, makes exactly the transition that the history
demands of a breaker with the given configuration. -/
structure FollowsHistory (failureThreshold : ℕ) (cooldownS : ℚ) (halfOpenProbeCount : ℕ)
    (tr : List HistoryStep) (t : HistoryStep) : Prop where
  /-- `CLOSED → OPEN` exactly at the failure that is the threshold-th one. -/
  trips : t.before.state = .CLOSED ∧ t.after.state = .OPEN ↔
    t.before.state = .CLOSED ∧ t.event.1 = .recordFailure ∧
      closedFailures tr + 1 = failureThreshold
  /-- `OPEN → HALF_OPEN` exactly at a `_maybe_transition_to_half_open` at least `cooldownS` after
  the latest entry into `OPEN`. -/
  halfOpens : t.before.state = .OPEN ∧ t.after.state = .HALF_OPEN ↔
    t.before.state = .OPEN ∧ t.event.1 = .maybeTransitionToHalfOpen ∧
      ∃ openedAt, lastOpened tr = some openedAt ∧ cooldownS ≤ t.event.2 - openedAt
  /-- `HALF_OPEN → OPEN` exactly at a failure recorded there. -/
  reopens : t.before.state = .HALF_OPEN ∧ t.after.state = .OPEN ↔
    t.before.state = .HALF_OPEN ∧ t.event.1 = .recordFailure
  /-- `HALF_OPEN → CLOSED` exactly at the success that is the `halfOpenProbeCount`-th one since
  entering `HALF_OPEN`. -/
  closes : t.before.state = .HALF_OPEN ∧ t.after.state = .CLOSED ↔
    t.before.state = .HALF_OPEN ∧ t.event.1 = .recordSuccess ∧
      probeSuccessesSince tr + 1 = halfOpenProbeCount
  /-- There is no other transition. -/
  noOther : t.before.state ≠ t.after.state →
    (t.before.state = .CLOSED ∧ t.after.state = .OPEN) ∨
      (t.before.state = .OPEN ∧ t.after.state = .HALF_OPEN) ∨
      (t.before.state = .HALF_OPEN ∧ t.after.state = .OPEN) ∨
      (t.before.state = .HALF_OPEN ∧ t.after.state = .CLOSED)

/-! ## The breaker tracks its history -/

/-- The counters and the timestamp of `cb` mean what the history `tr` says. -/
structure Tracks (tr : List HistoryStep) (cb : CircuitBreaker) : Prop where
  failureCount : cb.failureCount = closedFailures tr
  below_threshold : cb.state = .CLOSED → cb.failureCount < cb.failureThreshold
  openedAt : cb.state = .OPEN → cb.openedAt = lastOpened tr ∧ cb.openedAt.isSome
  probeSuccesses : cb.state = .HALF_OPEN → cb.probeSuccesses = probeSuccessesSince tr
  below_probeCount : cb.state = .HALF_OPEN → cb.probeSuccesses < cb.halfOpenProbeCount

/-- A new breaker `Tracks` the empty history: closed, with no failure and no success counted. -/
theorem tracks_init {failureThreshold halfOpenProbeCount : ℕ} (cooldownS : ℚ)
    (hthreshold : 1 ≤ failureThreshold) :
    Tracks [] (init failureThreshold cooldownS halfOpenProbeCount) where
  failureCount := rfl
  below_threshold _ := hthreshold
  openedAt h := by cases h
  probeSuccesses h := by cases h
  below_probeCount h := by cases h

/-- One more step restarts `closedFailures`, adds one to it or leaves it, as the step itself
says. -/
theorem closedFailures_concat (tr : List HistoryStep) (t : HistoryStep) :
    closedFailures (tr ++ [t]) =
      if t.restartsFailures then 0 else closedFailures tr + if t.isClosedFailure then 1 else 0 :=
  List.countSince_concat ..

/-- One more step is the latest entry into `OPEN` if it enters this state, and leaves `lastOpened`
as it is if not. -/
theorem lastOpened_concat (tr : List HistoryStep) (t : HistoryStep) :
    lastOpened (tr ++ [t]) = if t.enters .OPEN then some t.event.2 else lastOpened tr := by
  unfold lastOpened
  rw [List.latest_concat]
  split_ifs <;> rfl

/-- One more step restarts `probeSuccessesSince` at an entry into `HALF_OPEN`, and else adds one
exactly for a success. -/
theorem probeSuccessesSince_concat (tr : List HistoryStep) (t : HistoryStep) :
    probeSuccessesSince (tr ++ [t]) =
      if t.enters .HALF_OPEN then 0
      else probeSuccessesSince tr + if t.event.1 = .recordSuccess then 1 else 0 := by
  simp [probeSuccessesSince, List.countSince_concat]

/-- A step that changes nothing, an outcome ignored while open or a cooldown check that does not
fire, leaves the breaker in step with its history. -/
theorem tracks_idle {tr : List HistoryStep} {cb : CircuitBreaker} {e : Op × ℚ}
    (hidle : cb.state = .OPEN ∨ e.1 = .maybeTransitionToHalfOpen) (h : Tracks tr cb) :
    Tracks (tr ++ [⟨cb, e, cb⟩]) cb := by
  obtain ⟨hfail, hbelow, hopened, hprobe, hbelowProbe⟩ := h
  refine ⟨?_, hbelow, fun hs => ?_, fun hs => ?_, hbelowProbe⟩
  -- no failure is counted: the circuit is open, or the operation is no outcome
  · rcases hidle with hs | hop
    · simpa [closedFailures_concat, restartsFailures, isClosedFailure, enters, hs] using hfail
    · simpa [closedFailures_concat, restartsFailures, isClosedFailure, enters, hop] using hfail
  · simpa [lastOpened_concat, enters] using hopened hs
  · rcases hidle with hopen | hop
    · rw [hopen] at hs
      cases hs
    · simpa [probeSuccessesSince_concat, enters, hop] using hprobe hs

/-- Every operation keeps `Tracks`: the counters of the breaker are what the history, extended by
the step, says. -/
theorem tracks_step {tr : List HistoryStep} {cb : CircuitBreaker} (e : Op × ℚ)
    (hthreshold : 1 ≤ cb.failureThreshold) (hprobes : 1 ≤ cb.halfOpenProbeCount)
    (h : Tracks tr cb) : Tracks (tr ++ [⟨cb, e, cb.step e⟩]) (cb.step e) := by
  obtain ⟨hfail, hbelow, hopened, hprobe, hbelowProbe⟩ := id h
  have hcase := cb.step_case e
  generalize cb.step e = cb' at hcase ⊢
  cases hcase with
  -- the steps that change nothing
  | ignore op now hstate hop => exact tracks_idle (.inl hstate) h
  | wait now hstate hcooling => exact tracks_idle (.inl hstate) h
  | stay now hstate => exact tracks_idle (.inr rfl) h
  -- the steps of a closed circuit: the failure count grows, and `trip` notes the time
  | count now hstate hlt =>
    constructor <;>
      simp [closedFailures_concat, restartsFailures, isClosedFailure, enters, hstate]
    · exact hfail
    · exact hlt
  | trip now hstate hreached =>
    constructor <;>
      simp [closedFailures_concat, lastOpened_concat, restartsFailures, isClosedFailure, enters,
        hstate]
    exact hfail
  | clear now hstate =>
    constructor <;> simp [closedFailures_concat, restartsFailures, hstate]
    exact hthreshold
  -- the probe count starts from `0`, as it does in the history
  | halfOpen now openedAt hstate hat helapsed =>
    constructor <;>
      simp [closedFailures_concat, probeSuccessesSince_concat, restartsFailures, isClosedFailure,
        enters, hstate]
    · exact hfail
    · exact hprobes
  -- the failures counted before the outage stay counted until the circuit closes
  | reopen now hstate =>
    constructor <;>
      simp [closedFailures_concat, lastOpened_concat, restartsFailures, isClosedFailure, enters,
        hstate]
    exact hfail
  | probe now hstate hlt =>
    constructor <;>
      simp [closedFailures_concat, probeSuccessesSince_concat, restartsFailures, isClosedFailure,
        enters, hstate]
    · exact hfail
    · exact hprobe hstate
    · exact hlt
  -- closing restarts the failure count
  | close now hstate hreached =>
    constructor <;> simp [closedFailures_concat, restartsFailures, enters, hstate]
    exact hthreshold

/-- A breaker that `Tracks` its history takes the transition that the history demands of the next
operation. -/
theorem followsHistory_of_tracks {tr : List HistoryStep} {cb : CircuitBreaker} (e : Op × ℚ)
    (h : Tracks tr cb) :
    FollowsHistory cb.failureThreshold cb.cooldownS cb.halfOpenProbeCount tr
      ⟨cb, e, cb.step e⟩ := by
  obtain ⟨hfail, hbelow, hopened, hprobe, hbelowProbe⟩ := h
  have hcase := cb.step_case e
  generalize cb.step e = cb' at hcase ⊢
  cases hcase with
  | count now hstate hlt =>
    constructor <;> simp [hstate]
    omega
  -- the count was below the threshold, so it is reached exactly
  | trip now hstate hreached =>
    have := hbelow hstate
    constructor <;> simp [hstate]
    omega
  | clear now hstate => constructor <;> simp [hstate]
  | halfOpen now openedAt hstate hat helapsed =>
    constructor <;> simp [hstate]
    exact ⟨openedAt, (hopened hstate).1.symm.trans hat, helapsed⟩
  | reopen now hstate => constructor <;> simp [hstate]
  | probe now hstate hlt =>
    have := hprobe hstate
    constructor <;> simp [hstate]
    omega
  | close now hstate hreached =>
    have := hprobe hstate
    have := hbelowProbe hstate
    constructor <;> simp [hstate]
    omega
  | ignore op now hstate hop => constructor <;> simp [hstate, hop]
  -- the check that waits finds the latest entry into `OPEN` too recent
  | wait now hstate hcooling =>
    constructor <;> simp [hstate]
    intro openedAt hlast
    exact hcooling openedAt ((hopened hstate).1.trans hlast)
  | stay now hstate =>
    constructor <;> simp [hstate]
    intro hs
    simp [hs]

/-- Along every run of operations from a new breaker, each step makes exactly the transition that
the history before it demands: from `CLOSED` by the failures in a row, from `OPEN` by the time since
it was opened, and from `HALF_OPEN` by a failure or by the successes of the period. The history is
counted on the events, without the fields of the breaker. -/
theorem steps_follow_history {failureThreshold halfOpenProbeCount : ℕ} (cooldownS : ℚ)
    (hthreshold : 1 ≤ failureThreshold) (hprobes : 1 ≤ halfOpenProbeCount)
    (es : List (Op × ℚ)) (e : Op × ℚ) :
    let start := init failureThreshold cooldownS halfOpenProbeCount
    let cb := Run.after step start es
    FollowsHistory failureThreshold cooldownS halfOpenProbeCount (Run.steps step start es)
      ⟨cb, e, cb.step e⟩ := by
  intro start cb
  have hinv : Tracks (Run.steps step start es) cb ∧ cb.failureThreshold = failureThreshold ∧
      cb.cooldownS = cooldownS ∧ cb.halfOpenProbeCount = halfOpenProbeCount :=
    Run.history_invariant
      (P := fun tr cb => Tracks tr cb ∧ cb.failureThreshold = failureThreshold ∧
        cb.cooldownS = cooldownS ∧ cb.halfOpenProbeCount = halfOpenProbeCount)
      ⟨tracks_init cooldownS hthreshold, rfl, rfl, rfl⟩
      (fun tr cb e ⟨htracks, hconfig⟩ => by
        -- the configuration stays, so its bounds are there at every step
        obtain ⟨hft, hcd, hpc⟩ := cb.step_config e
        refine ⟨tracks_step e (by omega) (by omega) htracks, ?_⟩
        rw [hft, hcd, hpc]
        exact hconfig) es
  obtain ⟨htracks, hft, hcd, hpc⟩ := hinv
  have hfollows := followsHistory_of_tracks e htracks
  rwa [hft, hcd, hpc] at hfollows

/-- A breaker that opens at its first failure and cools down for one second, asked to become
half-open a second after it opened. -/
theorem steps_follow_history_after_trip :
    let cb := Run.after step (init 1 1 1) [(.recordFailure, 0)]
    FollowsHistory 1 1 1 (Run.steps step (init 1 1 1) [(.recordFailure, 0)])
      ⟨cb, (.maybeTransitionToHalfOpen, 1), cb.step (.maybeTransitionToHalfOpen, 1)⟩ :=
  steps_follow_history 1 (by decide) (by decide) _ _

end CircuitBreaker
