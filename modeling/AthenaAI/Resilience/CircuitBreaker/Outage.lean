import AthenaAI.Resilience.CircuitBreaker.Calls
import Mathlib.Algebra.Order.Floor.Semiring
import Mathlib.Data.Rat.Floor
import Mathlib.Tactic.FieldSimp
import Mathlib.Tactic.Linarith

/-!
# Outages

What a breaker is for: while the dependency is down, few calls reach it. Calls are concurrent, and
may begin and end in any order.

* `Sound` is what holds of a breaker in every run, and `Reached` what holds of a system of calls
  after any history; `reached_step` is their invariance.
* `CallCase` lists what an event can do, and `stepCall_case` says that there is nothing else.
* `Charged` is the invariant of the run of an outage: what has been admitted so far is within the
  `allowance`, whatever state the circuit is in.
* `admissions_le` is the bound on admissions. In an outage, when every function ends with an
  exception, no more invocations are admitted than the threshold allows for and, for each cooldown
  that goes by, as many as run at a time.
-/

namespace CircuitBreaker

/-! ## The breaker -/

/-- What holds of a breaker in every run. -/
structure Sound (cb : CircuitBreaker) : Prop where
  below_threshold : cb.state = .CLOSED → cb.failureCount < max cb.failureThreshold 1
  below_probeCount : cb.state = .HALF_OPEN → cb.probeSuccesses < max cb.halfOpenProbeCount 1

theorem sound_init (failureThreshold : ℕ) (cooldownS : ℚ) (halfOpenProbeCount : ℕ) :
    Sound (init failureThreshold cooldownS halfOpenProbeCount) where
  below_threshold _ := lt_max_of_lt_right one_pos
  below_probeCount h := by cases h

/-- Every operation keeps a breaker `Sound`: closed it is below the threshold, and half-open below
the probe count. -/
theorem sound_step {cb : CircuitBreaker} (h : Sound cb) (e : Op × ℚ) : Sound (cb.step e) := by
  obtain ⟨hbelow, hprobes⟩ := id h
  have hcase := cb.step_case e
  generalize cb.step e = cb' at hcase ⊢
  cases hcase with
  | count now hstate hlt => exact ⟨fun _ => lt_max_of_lt_left hlt, by simp [hstate]⟩
  | trip now hstate hreached => exact ⟨nofun, nofun⟩
  | clear now hstate => exact ⟨fun _ => lt_max_of_lt_right one_pos, by simp [hstate]⟩
  | halfOpen now openedAt hstate hat helapsed =>
    exact ⟨nofun, fun _ => lt_max_of_lt_right one_pos⟩
  | reopen now hstate => exact ⟨nofun, nofun⟩
  | probe now hstate hlt => exact ⟨by simp [hstate], fun _ => lt_max_of_lt_left hlt⟩
  | close now hstate hreached => exact ⟨fun _ => lt_max_of_lt_right one_pos, nofun⟩
  | ignore op now hstate hop => exact h
  | wait now hstate hcooling => exact h
  | stay now hstate => exact h

/-! ## The allowance of an outage -/

/-- The number of invocations that are admitted in an outage of some length, if no more than `limit`
run at a time. -/
def allowance (cb : CircuitBreaker) (limit : ℕ) (elapsed : ℚ) : ℕ :=
  max cb.failureThreshold 1 - 1 + limit + limit * ⌊elapsed / cb.cooldownS⌋₊

/-- The `allowance` of an outage covers what is admitted before the circuit opens, however short the
outage is. -/
theorem limit_le_allowance (cb : CircuitBreaker) (limit : ℕ) (elapsed : ℚ) :
    max cb.failureThreshold 1 - 1 + limit ≤ allowance cb limit elapsed :=
  Nat.le_add_right _ _

theorem allowance_mono {cb : CircuitBreaker} {limit : ℕ} (hcooldown : 0 < cb.cooldownS)
    {elapsed later : ℚ} (h : elapsed ≤ later) :
    allowance cb limit elapsed ≤ allowance cb limit later := by
  refine Nat.add_le_add_left (Nat.mul_le_mul_left limit (Nat.floor_le_floor ?_)) _
  exact div_le_div_of_nonneg_right h hcooldown.le

/-- In a further cooldown the `allowance` grows by the number of functions that may run at a
time. -/
theorem allowance_add_limit_le {cb : CircuitBreaker} {limit : ℕ} (hcooldown : 0 < cb.cooldownS)
    {elapsed later : ℚ} (helapsed : 0 ≤ elapsed) (h : elapsed + cb.cooldownS ≤ later) :
    allowance cb limit elapsed + limit ≤ allowance cb limit later := by
  refine le_trans ?_ (allowance_mono hcooldown h)
  have hfloor : ⌊(elapsed + cb.cooldownS) / cb.cooldownS⌋₊ = ⌊elapsed / cb.cooldownS⌋₊ + 1 := by
    rw [add_div, div_self hcooldown.ne']
    exact Nat.floor_add_one (div_nonneg helapsed hcooldown.le)
  rw [allowance, allowance, hfloor, Nat.mul_succ, Nat.add_assoc]

/-- In an outage since `began`, `n` invocations have been admitted, and `running` functions run. -/
structure Charged (limit : ℕ) (began now : ℚ) (cb : CircuitBreaker) (running n : ℕ) : Prop where
  /-- A closed circuit has counted those that have ended. -/
  closed : cb.state = .CLOSED → n ≤ cb.failureCount + running
  /-- When the circuit opened the allowance was kept. -/
  opened : cb.state = .OPEN → n ≠ 0 → ∃ openedAt, cb.openedAt = some openedAt ∧
    began ≤ openedAt ∧ openedAt ≤ now ∧ n ≤ cb.allowance limit (openedAt - began)
  /-- A half-open circuit may still admit as many as could run besides. -/
  halfOpen : cb.state = .HALF_OPEN → n + limit ≤ cb.allowance limit (now - began) + running

namespace Charged

variable {cb : CircuitBreaker} {limit running n : ℕ} {began now now' : ℚ}

/-- `Charged` goes on to hold while time passes and nothing happens: the allowance only grows. -/
theorem mono (hcooldown : 0 < cb.cooldownS) (h : Charged limit began now cb running n)
    (hnow : now ≤ now') : Charged limit began now' cb running n where
  closed := h.closed
  opened hstate hn := by
    obtain ⟨openedAt, hat, hbegan, hle, hn⟩ := h.opened hstate hn
    exact ⟨openedAt, hat, hbegan, hle.trans hnow, hn⟩
  halfOpen hstate := by
    refine (h.halfOpen hstate).trans (Nat.add_le_add_right ?_ _)
    exact allowance_mono hcooldown (sub_le_sub_right hnow began)

/-- What `Charged` counts is within the `allowance` of the outage, whatever state the circuit is
in. -/
theorem le_allowance (hsound : Sound cb) (hcooldown : 0 < cb.cooldownS) (hlimit : running ≤ limit)
    (h : Charged limit began now cb running n) : n ≤ cb.allowance limit (now - began) := by
  cases hstate : cb.state with
  | CLOSED =>
    have hcount := h.closed hstate
    have hbelow := hsound.below_threshold hstate
    have hallowance := limit_le_allowance cb limit (now - began)
    omega
  | OPEN =>
    by_cases hn : n = 0
    · rw [hn]
      exact Nat.zero_le _
    · obtain ⟨openedAt, -, -, hle, hn⟩ := h.opened hstate hn
      exact hn.trans (allowance_mono hcooldown (sub_le_sub_right hle began))
  | HALF_OPEN =>
    have hroom := h.halfOpen hstate
    omega

/-- A circuit that admits an invocation without a change of state stays `Charged`, with one more
running and one more admitted. -/
theorem admitted (hstate : cb.state ≠ .OPEN) (h : Charged limit began now cb running n) :
    Charged limit began now cb (running + 1) (n + 1) where
  closed hclosed := by
    have hcount := h.closed hclosed
    omega
  opened hopen := absurd hopen hstate
  halfOpen hhalf := by
    have hroom := h.halfOpen hhalf
    omega

/-- A circuit that becomes half-open stays `Charged`: a cooldown has gone by since it opened, and
the allowance has grown by as much as may run. -/
theorem probe (hcooldown : 0 < cb.cooldownS) {openedAt : ℚ} (hstate : cb.state = .OPEN)
    (hat : cb.openedAt = some openedAt) (helapsed : cb.cooldownS ≤ now - openedAt)
    (h : Charged limit began now cb running n) :
    Charged limit began now { cb with state := .HALF_OPEN, probeSuccesses := 0 }
      (running + 1) (n + 1) := by
  refine ⟨nofun, nofun, fun _ => ?_⟩
  have hroom : n + limit ≤ cb.allowance limit (now - began) := by
    by_cases hn : n = 0
    · have hallowance := limit_le_allowance cb limit (now - began)
      omega
    · obtain ⟨openedAt', hat', hbegan, -, hle⟩ := h.opened hstate hn
      obtain rfl : openedAt = openedAt' := Option.some.inj (hat.symm.trans hat')
      refine (Nat.add_le_add_right hle limit).trans ?_
      exact allowance_add_limit_le hcooldown (sub_nonneg.mpr hbegan) (by linarith)
  change n + 1 + limit ≤ cb.allowance limit (now - began) + (running + 1)
  omega

/-- A failure recorded keeps `Charged`: the function that failed runs no longer, and the circuit has
one failure more or opens. -/
theorem recordFailure (hsound : Sound cb) (hcooldown : 0 < cb.cooldownS)
    (hlimit : running + 1 ≤ limit) (hbegan : began ≤ now)
    (h : Charged limit began now cb (running + 1) n) :
    Charged limit began now (cb.recordFailure now) running n := by
  have hkept := h.le_allowance hsound hcooldown hlimit
  cases hstate : cb.state with
  | CLOSED =>
    have hcount := h.closed hstate
    rw [recordFailure_of_closed hstate]
    split_ifs
    · exact ⟨nofun, fun _ _ => ⟨now, rfl, hbegan, le_rfl, hkept⟩, nofun⟩
    · refine ⟨fun _ => ?_, by simp [hstate], by simp [hstate]⟩
      change n ≤ cb.failureCount + 1 + running
      omega
  | OPEN =>
    rw [recordFailure_of_open hstate]
    exact ⟨by simp [hstate], h.opened, by simp [hstate]⟩
  | HALF_OPEN =>
    rw [recordFailure_of_halfOpen hstate]
    exact ⟨nofun, fun _ _ => ⟨now, rfl, hbegan, le_rfl, hkept⟩, nofun⟩

end Charged

namespace CallSystem

/-! ## What an event does -/

/-- The event is a beginning, and the invocation is admitted. -/
def admits (s : CallSystem) : CallEvent × ℚ → Bool
  | (.begin, now) => (s.begin now).2.isOk
  | (.finish _ _, _) => false

/-- The event is the end of a running function, without an exception. -/
def succeeds (s : CallSystem) : CallEvent × ℚ → Bool
  | (.begin, _) => false
  | (.finish id outcome, _) => outcome = .success && s.running.any fun r => r.id = id

/-- The number of invocations that are admitted in a run. -/
def admissions (s : CallSystem) (es : List (CallEvent × ℚ)) : ℕ :=
  (Run.steps stepCall s es).countP fun t => t.before.admits t.event

/-- What an event does to the breaker and to the number of running functions. -/
inductive CallCase (s s' : CallSystem) : CallEvent × ℚ → Prop
  /-- An open circuit rejects the invocation. -/
  | reject (now : ℚ) (hadmits : s.admits (.begin, now) = false) (hstate : s.breaker.state = .OPEN)
      (hcooling : ∀ openedAt, s.breaker.openedAt = some openedAt →
        now - openedAt < s.breaker.cooldownS)
      (hbreaker : s'.breaker = s.breaker) (hrunning : s'.running = s.running) :
      CallCase s s' (.begin, now)
  /-- Another one admits it. -/
  | admitted (now : ℚ) (hadmits : s.admits (.begin, now) = true) (hstate : s.breaker.state ≠ .OPEN)
      (hbreaker : s'.breaker = s.breaker) (hrunning : s'.running.length = s.running.length + 1) :
      CallCase s s' (.begin, now)
  /-- An open circuit admits it after the cooldown, and is half-open then. -/
  | probe (now openedAt : ℚ) (hadmits : s.admits (.begin, now) = true)
      (hstate : s.breaker.state = .OPEN) (hat : s.breaker.openedAt = some openedAt)
      (helapsed : s.breaker.cooldownS ≤ now - openedAt)
      (hbreaker : s'.breaker = { s.breaker with state := .HALF_OPEN, probeSuccesses := 0 })
      (hrunning : s'.running.length = s.running.length + 1) :
      CallCase s s' (.begin, now)
  /-- A running function ends. -/
  | record (id : ℕ) (outcome : Outcome) (now : ℚ)
      (hsucceeds : s.succeeds (.finish id outcome, now) = true ↔ outcome = .success)
      (hbreaker : s'.breaker = s.breaker.finishCall outcome now)
      (hrunning : s'.running.length + 1 = s.running.length) :
      CallCase s s' (.finish id outcome, now)
  /-- There is no such function. -/
  | absent (id : ℕ) (outcome : Outcome) (now : ℚ)
      (hsucceeds : s.succeeds (.finish id outcome, now) = false) (hsame : s' = s) :
      CallCase s s' (.finish id outcome, now)

variable {s : CallSystem}

/-- In a `WellFormed` system a function that ends is taken off `running`, and no other one is. -/
theorem length_filter_running (hs : s.WellFormed) {r : Running} (hr : r ∈ s.running) :
    (s.running.filter fun r' => r'.id ≠ r.id).length + 1 = s.running.length := by
  have hone : s.running.countP (fun r' => r'.id = r.id) = 1 := by
    have hcount := List.count_eq_one_of_mem hs.nodup (List.mem_map_of_mem (f := Running.id) hr)
    rw [List.count, List.countP_map] at hcount
    rw [← hcount]
    exact List.countP_congr fun r' _ => by simp
  have hsplit := s.running.length_eq_countP_add_countP (fun r' => r'.id = r.id)
  rw [hone, add_comm] at hsplit
  rw [hsplit, List.countP_eq_length_filter]
  simp only [decide_eq_true_eq]

/-- `CallCase` lists all that an event can do to a `WellFormed` system. -/
theorem stepCall_case (hs : s.WellFormed) (e : CallEvent × ℚ) : CallCase s (s.stepCall e) e := by
  obtain ⟨event, now⟩ := e
  cases event with
  | begin =>
    change CallCase s (s.begin now).1 (.begin, now)
    by_cases hopen : (s.checked now).breaker.state = .OPEN
    · have hbegin := begin_of_open hopen
      have hadmits : s.admits (.begin, now) = false := by
        rw [admits, hbegin]
        rfl
      rw [hbegin]
      -- the check has left the circuit open, so it has done nothing
      have hstep := s.breaker.step_case (.maybeTransitionToHalfOpen, now)
      change StepCase s.breaker _ (s.checked now).breaker at hstep
      generalize hfound : (s.checked now).breaker = cb at hstep hopen
      cases hstep with
      | halfOpen _ openedAt hstate hat helapsed => cases hopen
      | ignore _ _ hstate hop => exact absurd rfl hop
      | wait _ hstate hcooling => exact .reject now hadmits hstate hcooling hfound rfl
      | stay _ hstate => exact absurd hopen hstate
    · have hbegin := begin_of_ne_open hopen
      have hadmits : s.admits (.begin, now) = true := by
        rw [admits, hbegin]
        rfl
      have hlength : (s.begin now).1.running.length = s.running.length + 1 := by
        rw [hbegin, List.length_append, List.length_singleton]
      have hsame : (s.begin now).1.breaker = (s.checked now).breaker := by rw [hbegin]
      have hstep := s.breaker.step_case (.maybeTransitionToHalfOpen, now)
      change StepCase s.breaker _ (s.checked now).breaker at hstep
      generalize (s.checked now).breaker = cb at hstep hopen hsame
      cases hstep with
      | halfOpen _ openedAt hstate hat helapsed =>
        exact .probe now openedAt hadmits hstate hat helapsed hsame hlength
      | ignore _ _ hstate hop => exact absurd rfl hop
      | wait _ hstate hcooling => exact absurd hstate hopen
      | stay _ hstate => exact .admitted now hadmits hstate hsame hlength
  | finish id outcome =>
    change CallCase s (s.finish id outcome now) (.finish id outcome, now)
    by_cases hrunning : (s.running.any fun r => r.id = id) = true
    · obtain ⟨r, hr, hid⟩ := List.any_eq_true.mp hrunning
      obtain rfl := of_decide_eq_true hid
      refine .record _ _ _ ?_ ?_ ?_
      · rw [succeeds, hrunning, Bool.and_true, decide_eq_true_eq]
      · rw [finish, if_pos hrunning]
        rfl
      · rw [finish, if_pos hrunning]
        exact length_filter_running hs hr
    · refine .absent _ _ _ ?_ ?_
      · rw [succeeds, Bool.eq_false_iff.mpr hrunning, Bool.and_false]
      · rw [finish, if_neg hrunning]

/-- What holds in every run from a new breaker `cb`. -/
structure Reached (cb : CircuitBreaker) (s : CallSystem) : Prop where
  wellFormed : s.WellFormed
  sound : Sound s.breaker
  failureThreshold : s.breaker.failureThreshold = cb.failureThreshold
  cooldownS : s.breaker.cooldownS = cb.cooldownS
  halfOpenProbeCount : s.breaker.halfOpenProbeCount = cb.halfOpenProbeCount

/-- `Reached` is an invariant of every event, also of those of calls made before the outage. -/
theorem reached_step {cb : CircuitBreaker} (s : CallSystem) (e : Event × ℚ) (h : s.Reached cb) :
    (s.step e).Reached cb := by
  have hwellFormed : (s.step e).WellFormed := by
    obtain ⟨event, now⟩ := e
    cases event with
    | call event => exact wellFormed_stepCall s (event, now) h.wellFormed
    | direct op => exact wellFormed_become h.wellFormed _
  rcases s.breaker_step e with hsame | ⟨op, hop⟩
  · constructor
    · exact hwellFormed
    all_goals rw [hsame]
    · exact h.sound
    · exact h.failureThreshold
    · exact h.cooldownS
    · exact h.halfOpenProbeCount
  · obtain ⟨hthreshold, hcooldown, hprobes⟩ := s.breaker.step_config (op, e.2)
    rw [← hop] at hthreshold hcooldown hprobes
    refine ⟨hwellFormed, ?_, hthreshold.trans h.failureThreshold, hcooldown.trans h.cooldownS,
      hprobes.trans h.halfOpenProbeCount⟩
    rw [hop]
    exact sound_step h.sound _

theorem reached_after {cb : CircuitBreaker} (hcb : Sound cb) (before : List (Event × ℚ)) :
    (Run.after step (start cb) before).Reached cb :=
  Run.invariant reached_step ⟨wellFormed_start cb, hcb, rfl, rfl, rfl⟩ before

theorem reached_stepCall {cb : CircuitBreaker} (h : s.Reached cb) (es : List (CallEvent × ℚ)) :
    (Run.after stepCall s es).Reached cb :=
  Run.invariant (fun s e => reached_step s (.call e.1, e.2)) h es

/-! ## Outages -/

variable {limit n : ℕ} {began ended : ℚ}

/-- An event of an outage keeps `Charged`: the step lemma of the bound on admissions. -/
theorem charged_stepCall (hs : s.WellFormed) (hsound : Sound s.breaker)
    (hcooldown : 0 < s.breaker.cooldownS) (hlimit : s.running.length ≤ limit) {e : CallEvent × ℚ}
    (hbegan : began ≤ e.2) (hdead : ∀ id outcome, e.1 = .finish id outcome → outcome = .exception)
    (h : Charged limit began e.2 s.breaker s.running.length n) :
    Charged limit began e.2 (s.stepCall e).breaker (s.stepCall e).running.length
      (n + if s.admits e then 1 else 0) := by
  have hcase := stepCall_case hs e
  generalize s.stepCall e = s' at hcase ⊢
  cases hcase with
  | reject now hadmits hstate hcooling hbreaker hrunning =>
    rw [hadmits, hbreaker, hrunning]
    exact h
  | admitted now hadmits hstate hbreaker hrunning =>
    rw [hadmits, hbreaker, hrunning]
    exact h.admitted hstate
  | probe now openedAt hadmits hstate hat helapsed hbreaker hrunning =>
    rw [hadmits, hbreaker, hrunning]
    exact h.probe hcooldown hstate hat helapsed
  | record id outcome now hsucceeds hbreaker hrunning =>
    obtain rfl := hdead id outcome rfl
    rw [← hrunning] at h hlimit
    rw [hbreaker]
    exact h.recordFailure hsound hcooldown hlimit hbegan
  | absent id outcome now hsucceeds hsame =>
    rw [hsame]
    exact h

/-- In a run no more than `limit` functions run at a time. -/
def AtMost (limit : ℕ) (s : CallSystem) (es : List (CallEvent × ℚ)) : Prop :=
  ∀ pre, pre <+: es → (Run.after stepCall s pre).running.length ≤ limit

/-- Every function that ends in a run ends with an exception. -/
def Dead (es : List (CallEvent × ℚ)) : Prop :=
  ∀ e ∈ es, ∀ id outcome, e.1 = .finish id outcome → outcome = .exception

/-- The last event of a run adds an admission exactly if it is the beginning of a call that is let
through. -/
theorem admissions_concat (s : CallSystem) (es : List (CallEvent × ℚ)) (e : CallEvent × ℚ) :
    admissions s (es ++ [e]) =
      admissions s es + if (Run.after stepCall s es).admits e then 1 else 0 := by
  rw [admissions, Run.steps_concat, List.countP_append, List.countP_singleton]
  rfl

/-- A run during an outage keeps `Charged`, by `charged_stepCall` and `mono` in turn: the run lemma
of the bound on admissions. -/
theorem charged_after {cb : CircuitBreaker} (hcooldown : 0 < cb.cooldownS) (hs : s.Reached cb)
    {outage : List (CallEvent × ℚ)} (hclock : ClockNondecreasing outage)
    (hbegan : ∀ e ∈ outage, began ≤ e.2) (hended : ∀ e ∈ outage, e.2 ≤ ended)
    (hdead : Dead outage) (hlimit : AtMost limit s outage) :
    Charged limit began ended (Run.after stepCall s outage).breaker
      (Run.after stepCall s outage).running.length (admissions s outage) := by
  induction outage using List.reverseRecOn generalizing ended with
  | nil =>
    refine ⟨fun _ => Nat.zero_le _, fun _ hn => absurd rfl hn, fun _ => ?_⟩
    have hallowance := limit_le_allowance s.breaker limit (ended - began)
    change 0 + limit ≤ s.breaker.allowance limit (ended - began) + _
    omega
  | append_singleton outage e ih =>
    have hmem : e ∈ outage ++ [e] := List.mem_append_right _ (List.mem_singleton_self e)
    obtain ⟨hclock', -, hlast⟩ := List.pairwise_append.mp hclock
    have hreached := reached_stepCall hs outage
    have hpos : 0 < (Run.after stepCall s outage).breaker.cooldownS := by
      rw [hreached.cooldownS]
      exact hcooldown
    have hpos' : 0 < (Run.after stepCall s (outage ++ [e])).breaker.cooldownS := by
      rw [(reached_stepCall hs (outage ++ [e])).cooldownS]
      exact hcooldown
    have hcharged := ih hclock' (fun e' he' => hbegan e' (List.mem_append_left _ he'))
      (fun e' he' => hlast e' he' e (List.mem_singleton_self e))
      (fun e' he' => hdead e' (List.mem_append_left _ he'))
      (fun pre hpre => hlimit pre (hpre.trans (List.prefix_append _ _)))
    refine Charged.mono hpos' ?_ (hended e hmem)
    rw [Run.after_concat, admissions_concat]
    exact charged_stepCall hreached.wellFormed hreached.sound hpos
      (hlimit outage (List.prefix_append _ _)) (hbegan e hmem) (hdead e hmem) hcharged

/-- In an outage (`Dead`: no function ends without an exception) no more invocations are admitted
than `max failure_threshold 1 - 1` and as many as run at a time, once and then for each cooldown
that goes by, whatever the breaker has been through before. The events of the outage are in any
interleaving, on a clock that never runs back. -/
theorem admissions_le {failureThreshold halfOpenProbeCount : ℕ} {cooldownS : ℚ}
    (hcooldown : 0 < cooldownS) (before : List (Event × ℚ)) {outage : List (CallEvent × ℚ)}
    (hclock : ClockNondecreasing outage)
    (hwindow : ∀ e ∈ outage, began ≤ e.2 ∧ e.2 ≤ ended) (hdead : Dead outage) :
    let s := Run.after step (start (init failureThreshold cooldownS halfOpenProbeCount)) before
    AtMost limit s outage → admissions s outage ≤
      max failureThreshold 1 - 1 + limit + limit * ⌊(ended - began) / cooldownS⌋₊ := by
  intro s hlimit
  have hs := reached_after (sound_init failureThreshold cooldownS halfOpenProbeCount) before
  have hcharged := charged_after hcooldown hs hclock (fun e he => (hwindow e he).1)
    (fun e he => (hwindow e he).2) hdead hlimit
  have hreached := reached_stepCall hs outage
  have hkept := hcharged.le_allowance hreached.sound (by rw [hreached.cooldownS]; exact hcooldown)
    (hlimit outage (List.prefix_refl _))
  rwa [allowance, hreached.failureThreshold, hreached.cooldownS] at hkept

/-- Two invocations fail, and trip a breaker with a cooldown of one second; after a second two more
are admitted. -/
def twoByTwo : List (CallEvent × ℚ) :=
  [(.begin, 0), (.begin, 0), (.finish 0 .exception, 0), (.finish 1 .exception, 0),
    (.begin, 1), (.begin, 1)]

/-- `admissions_le` for an outage in which two functions run at a time: the allowance is used up, so
that the bound cannot be improved. -/
theorem admissions_twoByTwo :
    admissions (start (init 1 1 1)) twoByTwo = 4 ∧
      admissions (start (init 1 1 1)) twoByTwo ≤ max 1 1 - 1 + 2 + 2 * ⌊((1 : ℚ) - 0) / 1⌋₊ := by
  have hlimit : AtMost 2 (start (init 1 1 1)) twoByTwo := by
    have hall : (twoByTwo.inits.all fun pre =>
        (Run.after stepCall (start (init 1 1 1)) pre).running.length ≤ 2) = true := by
      decide +kernel
    intro pre hpre
    exact of_decide_eq_true (List.all_eq_true.mp hall pre ((List.mem_inits _ _).mpr hpre))
  refine ⟨by decide +kernel, admissions_le (by norm_num) [] ?_ ?_ ?_ hlimit⟩
  · simp [ClockNondecreasing, twoByTwo]
  · simp [twoByTwo]
  · simp [Dead, twoByTwo]

end CallSystem

end CircuitBreaker
