import AthenaAI.Resilience.CircuitBreaker.Calls
import Mathlib.Tactic.Linarith

/-!
# The cooldown of an open circuit

From the moment a circuit opens until `cooldownS` later nothing changes in the breaker: every
invocation of `call` raises `CircuitOpenError`, and outcomes of earlier invocations and direct uses
of `record_success` and `record_failure` are ignored. The first invocation after that is let
through. Both follow from what one event does to an open circuit (`step_of_cooling`,
`breaker_step_of_open`), by induction along the run since the circuit opened.

* `OpenSince` says that the circuit is open, and since when. An event that opens the circuit is the
  start of it (`openSince_of_opens`).
* `after_of_cooling`: events before the end of the cooldown leave the breaker as it is, and
  `after_of_open` says so of a run that never leaves `OPEN`.
* `open_for_cooldown`: both halves, for every run before and since the circuit opened.
-/

namespace CircuitBreaker.CallSystem

/-- The circuit has been open since `openedAt`. -/
structure OpenSince (s : CallSystem) (openedAt : ℚ) : Prop where
  state : s.breaker.state = .OPEN
  openedAt : s.breaker.openedAt = some openedAt

/-- `OpenSince` is about the breaker alone, so an event that leaves it as it is keeps it. -/
theorem OpenSince.of_breaker_eq {s s' : CallSystem} {openedAt : ℚ} (h : s.OpenSince openedAt)
    (hsame : s'.breaker = s.breaker) : s'.OpenSince openedAt where
  state := by rw [hsame, h.state]
  openedAt := by rw [hsame, h.openedAt]

/-- The outcome of an invocation does nothing to an open circuit, whatever it is: calls that began
before the trip cannot close it. -/
theorem finishCall_of_open {cb : CircuitBreaker} (h : cb.state = .OPEN) (outcome : Outcome)
    (now : ℚ) : cb.finishCall outcome now = cb := by
  cases outcome with
  | success => exact recordSuccess_of_open h
  | exception => exact recordFailure_of_open h
  | cancelled => rfl

/-- Before the cooldown has elapsed `maybeTransitionToHalfOpen` leaves an open circuit alone. -/
theorem maybeTransition_of_cooling {s : CallSystem} {openedAt now : ℚ} (h : s.OpenSince openedAt)
    (hcooling : now < openedAt + s.breaker.cooldownS) :
    s.breaker.maybeTransitionToHalfOpen now = s.breaker := by
  rw [maybeTransitionToHalfOpen_of_open h.state h.openedAt, if_neg]
  linarith

/-- Before the cooldown has elapsed an invocation raises `CircuitOpenError`, and its function does
not run. -/
theorem begin_of_cooling {s : CallSystem} {openedAt now : ℚ} (h : s.OpenSince openedAt)
    (hcooling : now < openedAt + s.breaker.cooldownS) :
    (s.begin now).1.breaker = s.breaker ∧ (s.begin now).1.running = s.running ∧
      (s.begin now).2 = .error (.of .CircuitOpenError "Circuit breaker is OPEN".toList) := by
  have hsame : (s.checked now).breaker = s.breaker := maybeTransition_of_cooling h hcooling
  rw [begin_of_open (by rw [hsame, h.state])]
  exact ⟨hsame, rfl, rfl⟩

/-- Before the cooldown has elapsed no event changes a field of an open breaker. -/
theorem step_of_cooling {s : CallSystem} {openedAt : ℚ} (h : s.OpenSince openedAt)
    {e : Event × ℚ} (hcooling : e.2 < openedAt + s.breaker.cooldownS) :
    (s.step e).breaker = s.breaker := by
  obtain ⟨event, now⟩ := e
  -- outcomes are ignored while open, and the check waits for the cooldown
  cases event with
  | direct op =>
    cases op with
    | recordFailure => exact recordFailure_of_open h.state
    | recordSuccess => exact recordSuccess_of_open h.state
    | maybeTransitionToHalfOpen => exact maybeTransition_of_cooling h hcooling
  | call event =>
    cases event with
    | begin => exact (begin_of_cooling h hcooling).1
    | finish id outcome =>
      change (s.finish id outcome now).breaker = _
      unfold finish
      split_ifs
      · exact finishCall_of_open h.state outcome now
      · rfl

/-- Along events that all come before the cooldown has elapsed the breaker stays as it is:
`step_of_cooling` over a run. -/
theorem after_of_cooling {s : CallSystem} {openedAt : ℚ} (h : s.OpenSince openedAt)
    {es : List (Event × ℚ)} (hcooling : ∀ e ∈ es, e.2 < openedAt + s.breaker.cooldownS) :
    (Run.after step s es).breaker = s.breaker := by
  induction es generalizing s with
  | nil => rfl
  | cons e es ih =>
    -- the first event changes nothing, so the rest starts from the same breaker
    have hsame := step_of_cooling h (hcooling e List.mem_cons_self)
    rw [Run.after_cons, ih (h.of_breaker_eq hsame), hsame]
    intro e' he'
    rw [hsame]
    exact hcooling e' (List.mem_cons_of_mem e he')

/-- An event that leaves an open circuit open changes no field of the breaker, whatever the clock
says. -/
theorem breaker_step_of_open {s : CallSystem} {e : Event × ℚ} (h : s.breaker.state = .OPEN)
    (hopen : (s.step e).breaker.state = .OPEN) : (s.step e).breaker = s.breaker := by
  rcases s.breaker_step_case e with hsame | ⟨op, hcase⟩
  · exact hsame
  · generalize (s.step e).breaker = cb at hcase hopen ⊢
    -- of the cases that find the circuit open, only the end of the cooldown changes anything
    cases hcase <;> first | rfl | simp_all

/-- Along a run that never leaves `OPEN` the breaker stays as it is, with the time at which it
opened. -/
theorem after_of_open {s : CallSystem} {es : List (Event × ℚ)} (h : s.breaker.state = .OPEN)
    (hopen : ∀ t ∈ Run.steps step s es, t.after.breaker.state = .OPEN) :
    (Run.after step s es).breaker = s.breaker := by
  induction es generalizing s with
  | nil => rfl
  | cons e es ih =>
    rw [Run.steps_cons, List.forall_mem_cons] at hopen
    rw [Run.after_cons, ih hopen.1 hopen.2]
    exact breaker_step_of_open h hopen.1

/-- The event that opens a circuit is the start of its cooldown: `OpenSince` holds with its clock
reading. -/
theorem openSince_of_opens {s : CallSystem} {e : Event × ℚ} (hbefore : s.breaker.state ≠ .OPEN)
    (hafter : (s.step e).breaker.state = .OPEN) : (s.step e).OpenSince e.2 := by
  refine ⟨hafter, ?_⟩
  rcases s.breaker_step_case e with hsame | ⟨op, hcase⟩
  · exact absurd (hsame ▸ hafter) hbefore
  · generalize (s.step e).breaker = cb at hcase hafter ⊢
    -- the circuit opens by tripping or by reopening, and both note the time
    cases hcase <;> first | rfl | simp_all

/-- The first invocation after the cooldown of an open circuit is let through. -/
theorem begin_of_elapsed {s : CallSystem} {openedAt now : ℚ} (h : s.OpenSince openedAt)
    (helapsed : openedAt + s.breaker.cooldownS ≤ now) : (s.begin now).2 = .ok () := by
  -- the check makes the circuit half-open, and only an open one rejects
  rw [begin_of_ne_open]
  change (s.breaker.maybeTransitionToHalfOpen now).state ≠ .OPEN
  rw [maybeTransitionToHalfOpen_of_open h.state h.openedAt, if_pos (by linarith)]
  simp

/-- No run of events changes `cooldownS`, so one cooldown is meant throughout. -/
theorem cooldownS_after (s : CallSystem) (es : List (Event × ℚ)) :
    (Run.after step s es).breaker.cooldownS = s.breaker.cooldownS := by
  refine Run.invariant (P := fun s' : CallSystem => s'.breaker.cooldownS = s.breaker.cooldownS)
    (fun s' e hs' => ?_) rfl es
  rcases s'.breaker_step e with hsame | ⟨op, hop⟩
  · rw [hsame, hs']
  · rw [hop, (s'.breaker.step_config _).2.1, hs']

/-- If the event `e` opens the circuit, then at every later event `x` before the cooldown has
elapsed the breaker is as `e` left it and stays so, and an invocation that begins there raises
`CircuitOpenError` without running its function; and if the circuit has not left `OPEN` since `e`,
an invocation that begins once the cooldown has elapsed is let through. The events before, between
and at `x` are any, in any interleaving of the calls. -/
theorem open_for_cooldown (cb : CircuitBreaker) (before since : List (Event × ℚ))
    (e x : Event × ℚ) (hclock : ClockNondecreasing (before ++ e :: (since ++ [x])))
    (hnot : (Run.after step (start cb) before).breaker.state ≠ .OPEN)
    (hopen : ((Run.after step (start cb) before).step e).breaker.state = .OPEN) :
    let opened := (Run.after step (start cb) before).step e
    let found := Run.after step opened since
    (x.2 < e.2 + cb.cooldownS →
      found.breaker = opened.breaker ∧ (found.step x).breaker = opened.breaker ∧
        (x.1 = .call .begin →
          (found.begin x.2).2 = .error (.of .CircuitOpenError "Circuit breaker is OPEN".toList) ∧
            (found.step x).running = found.running)) ∧
      ((∀ t ∈ Run.steps step opened since, t.after.breaker.state = .OPEN) →
        e.2 + cb.cooldownS ≤ x.2 → x.1 = .call .begin → (found.begin x.2).2 = .ok ()) := by
  intro opened found
  have hsince : opened.OpenSince e.2 := openSince_of_opens hnot hopen
  have hcooldown : opened.breaker.cooldownS = cb.cooldownS := by
    have := cooldownS_after (start cb) (before ++ [e])
    rwa [Run.after_concat] at this
  constructor
  -- during the cooldown nothing has changed since the circuit opened
  · intro hx
    have hle : ∀ e' ∈ since, e'.2 ≤ x.2 := by
      intro e' he'
      obtain ⟨-, htail, -⟩ := List.pairwise_append.mp hclock
      obtain ⟨-, -, hlast⟩ := List.pairwise_append.mp (List.pairwise_cons.mp htail).2
      exact hlast e' he' x (List.mem_singleton_self x)
    have hsame : found.breaker = opened.breaker := by
      refine after_of_cooling hsince fun e' he' => ?_
      rw [hcooldown]
      exact (hle e' he').trans_lt hx
    have hfound : found.OpenSince e.2 := hsince.of_breaker_eq hsame
    have hcooling : x.2 < e.2 + found.breaker.cooldownS := by rwa [hsame, hcooldown]
    refine ⟨hsame, (step_of_cooling hfound hcooling).trans hsame, fun hbegin => ?_⟩
    obtain ⟨-, hrunning, hraises⟩ := begin_of_cooling hfound hcooling
    obtain ⟨event, now⟩ := x
    obtain rfl : event = .call .begin := hbegin
    exact ⟨hraises, hrunning⟩
  -- after it, nothing has changed either if the circuit is still open
  · intro hstays helapsed hbegin
    have hsame : found.breaker = opened.breaker := after_of_open hsince.state hstays
    have hfound : found.OpenSince e.2 := hsince.of_breaker_eq hsame
    refine begin_of_elapsed hfound ?_
    rwa [hsame, hcooldown]

/-- `open_for_cooldown` for a breaker with a cooldown of one second that the first invocation trips;
another failure is recorded then. An invocation at that moment is rejected, one a second later is
let through. -/
theorem open_for_cooldown_after_trip :
    let opened := (Run.after step (start (init 1 1 1)) [(.call .begin, 0)]).step
      (.call (.finish 0 .exception), 0)
    let found := Run.after step opened [(.direct .recordFailure, 0)]
    (found.begin 0).2 = .error (.of .CircuitOpenError "Circuit breaker is OPEN".toList) ∧
      (found.begin 1).2 = .ok () := by
  intro opened found
  have hrejected := open_for_cooldown (init 1 1 1) [(.call .begin, 0)] [(.direct .recordFailure, 0)]
    (.call (.finish 0 .exception), 0) (.call .begin, 0) (by simp [ClockNondecreasing])
    (by decide +kernel) (by decide +kernel)
  have hlater := open_for_cooldown (init 1 1 1) [(.call .begin, 0)] [(.direct .recordFailure, 0)]
    (.call (.finish 0 .exception), 0) (.call .begin, 1) (by simp [ClockNondecreasing])
    (by decide +kernel) (by decide +kernel)
  refine ⟨((hrejected.1 (by decide +kernel)).2.2 rfl).1, hlater.2 ?_ (by decide +kernel) rfl⟩
  intro t ht
  obtain rfl := List.mem_singleton.mp ht
  decide +kernel

end CircuitBreaker.CallSystem
