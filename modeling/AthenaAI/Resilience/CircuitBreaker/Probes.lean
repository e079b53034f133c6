import AthenaAI.Resilience.CircuitBreaker.Calls

/-!
# Probes of a half-open circuit

A probe is an invocation admitted while the circuit is `HALF_OPEN`. The breaker neither counts the
probes in flight nor asks which invocation an outcome belongs to, so what is meant to hold of
probes depends on the callers:

* `probes_bounded_iff`: at most `halfOpenProbeCount` probes of a `HALF_OPEN` period are in flight,
  in every state of a run, exactly when no invocation begins while that many already are.
* `decided_by_probe_iff`: every step of a run that leaves `HALF_OPEN` is the outcome of a probe of
  that period exactly when no other invocation reports a deciding outcome while `HALF_OPEN`.
-/

namespace CircuitBreaker.CallSystem

/-! ## The number of probes in flight -/

/-- The running invocations that were admitted during the `period`-th `HALF_OPEN` period. -/
def probes (s : CallSystem) (period : ℕ) : ℕ :=
  s.running.countP fun r => r.admittedIn = .HALF_OPEN ∧ r.period = period

/-- In every state of the run, at most `halfOpenProbeCount` probes of each period are running. -/
def ProbesBounded (s : CallSystem) (es : List (CallEvent × ℚ)) : Prop :=
  ∀ pre, pre <+: es → ∀ period,
    (Run.after stepCall s pre).probes period ≤ s.breaker.halfOpenProbeCount

/-- In every step of the run, an invocation that begins in `HALF_OPEN` when `halfOpenProbeCount`
probes of the period are running raises `CircuitOpenError`. -/
def SurplusRejected (s : CallSystem) (es : List (CallEvent × ℚ)) : Prop :=
  ∀ t ∈ Run.steps stepCall s es, t.event.1 = .begin →
    let now := t.event.2
    let found := t.before.checked now
    found.breaker.state = .HALF_OPEN →
    s.breaker.halfOpenProbeCount ≤ found.probes found.halfOpenPeriods →
    ∃ exc, (t.before.begin now).2 = .error exc ∧ exc.type = .CircuitOpenError

/-- The event is not a beginning in `HALF_OPEN` with `limit` probes of the period running. -/
def NoSurplus (limit : ℕ) (s : CallSystem) (e : CallEvent × ℚ) : Prop :=
  e.1 = .begin → (s.checked e.2).breaker.state = .HALF_OPEN →
    (s.checked e.2).probes (s.checked e.2).halfOpenPeriods < limit

/-- Admitting an invocation adds one to the `probes` of the current period, and only if the circuit
is half-open. -/
theorem probes_begin {s : CallSystem} {now : ℚ} (period : ℕ) :
    (s.begin now).1.probes period =
      s.probes period +
        if (s.checked now).breaker.state = .HALF_OPEN ∧ (s.checked now).halfOpenPeriods = period
        then 1 else 0 := by
  by_cases hs : (s.checked now).breaker.state = .OPEN
  -- the invocation is rejected
  · rw [begin_of_open hs, if_neg (by simp [hs])]
    rfl
  · rw [begin_of_ne_open hs]
    simp [probes, List.countP_append, List.countP_cons]

/-- An invocation that ends adds to the `probes` of no period. -/
theorem probes_finish_le (s : CallSystem) (id : ℕ) (outcome : Outcome) (now : ℚ) (period : ℕ) :
    (s.finish id outcome now).probes period ≤ s.probes period := by
  unfold finish
  split_ifs
  · exact List.filter_sublist.countP_le
  · exact le_rfl

/-- From a state within the bound, a step stays within it exactly if `NoSurplus` holds of it, that
is, if it is no beginning beyond the limit. -/
theorem probes_step_iff {limit : ℕ} {s : CallSystem} (e : CallEvent × ℚ)
    (h : ∀ period, s.probes period ≤ limit) :
    (∀ period, (s.stepCall e).probes period ≤ limit) ↔ NoSurplus limit s e := by
  obtain ⟨event, now⟩ := e
  cases event with
  -- an end can only lower the number, and is never surplus
  | finish id outcome =>
    refine ⟨fun _ hbegin => (by cases hbegin), fun _ period => ?_⟩
    exact (s.probes_finish_le id outcome now period).trans (h period)
  | begin =>
    change (∀ period, (s.begin now).1.probes period ≤ limit) ↔ _
    simp only [probes_begin]
    have hsame (period : ℕ) : (s.checked now).probes period = s.probes period := rfl
    constructor
    -- the new probe is counted, so there was room for it
    · intro hall _ hhalf
      have := hall (s.checked now).halfOpenPeriods
      rw [if_pos ⟨hhalf, rfl⟩] at this
      exact hsame _ ▸ this
    · intro hguard period
      by_cases hadmission : (s.checked now).breaker.state = .HALF_OPEN ∧
          (s.checked now).halfOpenPeriods = period
      · have hlt := hguard rfl hadmission.1
        rw [hadmission.2, hsame] at hlt
        rw [if_pos hadmission]
        exact hlt
      · rw [if_neg hadmission]
        exact h period

/-- The running probes of every period stay within `halfOpenProbeCount` (`ProbesBounded`), the
surplus invocations being rejected (`SurplusRejected`), exactly when the callers begin no surplus
invocation (`NoSurplus`): the breaker itself rejects none, as long as it is half-open. -/
theorem probes_bounded_iff (cb : CircuitBreaker) (es : List (CallEvent × ℚ)) :
    ProbesBounded (start cb) es ∧ SurplusRejected (start cb) es ↔
      ∀ t ∈ Run.steps stepCall (start cb) es,
        NoSurplus cb.halfOpenProbeCount t.before t.event := by
  have hstart : ∀ period, (start cb).probes period ≤ cb.halfOpenProbeCount := fun _ =>
    Nat.zero_le _
  have hiff := Run.forall_prefix_iff
    (P := fun s => ∀ period, s.probes period ≤ cb.halfOpenProbeCount)
    (G := NoSurplus cb.halfOpenProbeCount)
    (fun s e hs => probes_step_iff e hs) hstart es
  constructor
  · rintro ⟨hbounded, -⟩
    exact hiff.mp hbounded
  · intro hguard
    -- without a surplus invocation there is nothing to reject
    refine ⟨hiff.mpr hguard, fun t ht hbegin hhalf hfull => ?_⟩
    exact absurd (hguard t ht hbegin hhalf) (not_lt.mpr hfull)

/-- The first invocation fails and trips the circuit; after the cooldown two invocations begin
before either has ended. -/
def twoProbes : List (CallEvent × ℚ) :=
  [(.begin, 0), (.finish 0 .exception, 0), (.begin, 1), (.begin, 1)]

/-- With one probe allowed, `twoProbes` has two of them in flight: both begin when the cooldown is
over, before either of them ends. -/
theorem twoProbes_not_bounded :
    ClockNondecreasing twoProbes ∧
      (Run.after stepCall (start (init 1 1 1)) twoProbes).probes 1 = 2 ∧
      ¬ProbesBounded (start (init 1 1 1)) twoProbes := by
  have hclock : ClockNondecreasing twoProbes := by
    simp [ClockNondecreasing, twoProbes]
  have htwo : (Run.after stepCall (start (init 1 1 1)) twoProbes).probes 1 = 2 := by
    decide +kernel
  refine ⟨hclock, htwo, fun hbounded => ?_⟩
  have hle := hbounded twoProbes (List.prefix_refl _) 1
  rw [htwo] at hle
  exact absurd hle (by decide)

/-! ## Which outcomes decide a half-open circuit -/

/-- The invocation `r` is a probe of the `HALF_OPEN` period that `s` is in. -/
def IsProbe (s : CallSystem) (r : Running) : Prop :=
  r.admittedIn = .HALF_OPEN ∧ r.period = s.halfOpenPeriods

/-- If the step leaves `HALF_OPEN`, then it is the outcome of a probe of that period. -/
def DecidedByProbe (t : Run.Step CallSystem (CallEvent × ℚ)) : Prop :=
  t.before.breaker.state = .HALF_OPEN → t.after.breaker.state ≠ .HALF_OPEN →
    ∃ id outcome, t.event.1 = .finish id outcome ∧
      ∃ r ∈ t.before.running, r.id = id ∧ t.before.IsProbe r

/-- The event is not the deciding outcome, in `HALF_OPEN`, of an invocation admitted outside the
current period: a failure, or the last success that closing still needs. -/
def NoLateVerdict (s : CallSystem) (e : CallEvent × ℚ) : Prop :=
  s.breaker.state = .HALF_OPEN → ∀ r ∈ s.running, ¬s.IsProbe r →
    e.1 ≠ .finish r.id .exception ∧
      (e.1 = .finish r.id .success →
        s.breaker.probeSuccesses + 1 < s.breaker.halfOpenProbeCount)

/-- The end of a function that is not running is no event: nothing happens. -/
theorem finish_of_not_running {s : CallSystem} {id : ℕ} (h : ∀ r ∈ s.running, r.id ≠ id)
    (outcome : Outcome) (now : ℚ) : s.finish id outcome now = s := by
  unfold finish
  rw [if_neg]
  simpa using h

/-- A running function that ends has its outcome recorded by `finishCall`. -/
theorem finish_of_running {s : CallSystem} {r : Running} (hr : r ∈ s.running) (outcome : Outcome)
    (now : ℚ) : (s.finish r.id outcome now).breaker = s.breaker.finishCall outcome now := by
  unfold finish
  rw [if_pos (by simpa using ⟨r, hr, rfl⟩)]
  rfl

/-- Beginning an invocation does not leave `HALF_OPEN`: `call` sets no limit there. -/
theorem begin_of_halfOpen {s : CallSystem} (h : s.breaker.state = .HALF_OPEN) (now : ℚ) :
    (s.begin now).1.breaker = s.breaker := by
  have hfound : (s.checked now).breaker = s.breaker :=
    maybeTransitionToHalfOpen_of_ne_open (by rw [h]; decide)
  rw [begin_of_ne_open (by rw [hfound, h]; decide)]
  exact hfound

/-- An outcome leaves `HALF_OPEN` exactly if it is a failure or the last success needed. -/
theorem finishCall_leaves_halfOpen_iff {cb : CircuitBreaker} (h : cb.state = .HALF_OPEN)
    (outcome : Outcome) (now : ℚ) :
    (cb.finishCall outcome now).state ≠ .HALF_OPEN ↔
      outcome = .exception ∨
        (outcome = .success ∧ cb.halfOpenProbeCount ≤ cb.probeSuccesses + 1) := by
  cases outcome with
  | success =>
    change cb.recordSuccess.state ≠ _ ↔ _
    rw [recordSuccess_of_halfOpen h]
    split_ifs with hreached <;> simp [h, hreached]
  | exception =>
    change (cb.recordFailure now).state ≠ _ ↔ _
    rw [recordFailure_of_halfOpen h]
    simp
  | cancelled => simp [finishCall, h]

/-- In a well-formed system, a step that leaves `HALF_OPEN` is a probe's exactly if the event is no
late verdict. -/
theorem decidedByProbe_step_iff {s : CallSystem} (h : s.WellFormed) (e : CallEvent × ℚ) :
    DecidedByProbe ⟨s, e, s.stepCall e⟩ ↔ NoLateVerdict s e := by
  obtain ⟨event, now⟩ := e
  constructor
  · intro hdecided hhalf r hr hlate
    -- a verdict of `r` would have to be the outcome of a probe, which is `r` itself
    have hnot (outcome : Outcome) (hevent : event = .finish r.id outcome) :
        ¬(s.breaker.finishCall outcome now).state ≠ .HALF_OPEN := by
      subst hevent
      intro hleaves
      rw [← finish_of_running hr] at hleaves
      obtain ⟨id, outcome', hfinish, r', hr', hid, hprobe⟩ := hdecided hhalf hleaves
      obtain ⟨rfl, rfl⟩ := CallEvent.finish.inj hfinish
      exact hlate (List.inj_on_of_nodup_map h.nodup hr' hr hid ▸ hprobe)
    refine ⟨fun hevent => hnot .exception hevent ?_, fun hevent => ?_⟩
    · exact (finishCall_leaves_halfOpen_iff hhalf _ _).mpr (.inl rfl)
    · by_contra hge
      refine hnot .success hevent ?_
      exact (finishCall_leaves_halfOpen_iff hhalf _ _).mpr (.inr ⟨rfl, not_lt.mp hge⟩)
  · intro hguard hhalf hleaves
    cases event with
    | begin => exact absurd ((begin_of_halfOpen hhalf now).symm ▸ hhalf) hleaves
    | finish id outcome =>
      refine ⟨id, outcome, rfl, ?_⟩
      -- the step is the end of a running invocation, which must be a probe
      by_cases hrunning : ∃ r ∈ s.running, r.id = id
      · obtain ⟨r, hr, rfl⟩ := hrunning
        refine ⟨r, hr, rfl, ?_⟩
        by_contra hlate
        obtain ⟨hfailure, hsuccess⟩ := hguard hhalf r hr hlate
        change (s.finish r.id outcome now).breaker.state ≠ _ at hleaves
        rw [finish_of_running hr] at hleaves
        rcases (finishCall_leaves_halfOpen_iff hhalf _ _).mp hleaves with rfl | ⟨rfl, hreached⟩
        · exact hfailure rfl
        · exact absurd (hsuccess rfl) (not_lt.mpr hreached)
      · have hsame : s.finish id outcome now = s :=
          finish_of_not_running (fun r hr hid => hrunning ⟨r, hr, hid⟩) outcome now
        change (s.finish id outcome now).breaker.state ≠ _ at hleaves
        rw [hsame] at hleaves
        exact absurd hhalf hleaves

/-- Every step of a run that leaves `HALF_OPEN` is the outcome of a probe of that period
(`DecidedByProbe`) exactly when every step has `NoLateVerdict`: no invocation that was admitted
before the period ends in it. The breaker does not tell the outcome of such an invocation from that
of a probe. -/
theorem decided_by_probe_iff (cb : CircuitBreaker) (es : List (CallEvent × ℚ)) :
    (∀ t ∈ Run.steps stepCall (start cb) es, DecidedByProbe t) ↔
      ∀ t ∈ Run.steps stepCall (start cb) es, NoLateVerdict t.before t.event := by
  -- invocations keep distinct numbers in every run, so the step lemma applies to each step
  refine forall₂_congr fun t ht => ?_
  obtain ⟨pre, e, post, -, rfl⟩ := (Run.mem_steps_iff stepCall).mp ht
  exact decidedByProbe_step_iff (Run.invariant wellFormed_stepCall (wellFormed_start cb) pre) e

/-- An invocation from before the outage is still running when the circuit becomes half-open, and
succeeds before the probe has ended. -/
def lateSuccess : List (CallEvent × ℚ) :=
  [(.begin, 0), (.begin, 0), (.finish 1 .exception, 0), (.begin, 1), (.finish 0 .success, 1)]

/-- In `lateSuccess` the last step closes the circuit, and it is the outcome of an invocation that
was admitted while the circuit was `CLOSED`, before it tripped. -/
theorem lateSuccess_not_decided_by_probe :
    ClockNondecreasing lateSuccess ∧
      ¬∀ t ∈ Run.steps stepCall (start (init 1 1 1)) lateSuccess, DecidedByProbe t := by
  refine ⟨by simp [ClockNondecreasing, lateSuccess], fun hall => ?_⟩
  let s := Run.after stepCall (start (init 1 1 1)) (lateSuccess.take 4)
  have hrunning : s.running = [⟨0, .CLOSED, 0⟩, ⟨2, .HALF_OPEN, 1⟩] := by decide +kernel
  have hbefore : s.breaker.state = .HALF_OPEN := by decide +kernel
  have hafter : (s.stepCall (.finish 0 .success, 1)).breaker.state = .CLOSED := by decide +kernel
  have hstep : ⟨s, (.finish 0 .success, 1), s.stepCall (.finish 0 .success, 1)⟩ ∈
      Run.steps stepCall (start (init 1 1 1)) lateSuccess :=
    (Run.mem_steps_iff stepCall).mpr ⟨lateSuccess.take 4, _, [], rfl, rfl⟩
  obtain ⟨id, outcome, hevent, r, hr, hid, hprobe⟩ :=
    hall _ hstep hbefore (by rw [hafter]; decide)
  obtain ⟨rfl, rfl⟩ := CallEvent.finish.inj hevent
  -- the only running invocation with number `0` was admitted while `CLOSED`
  rw [hrunning] at hr
  rcases List.mem_pair.mp hr with rfl | rfl
  · cases hprobe.1
  · cases hid

end CircuitBreaker.CallSystem
