import AthenaAI.Resilience.CircuitBreaker.Defs
import Mathlib.Data.List.Nodup

/-!
# Concurrent calls through a breaker

Any number of `CircuitBreaker.call` invocations share one breaker on one event loop. An invocation
begins (`beginCall`), which either raises `CircuitOpenError` or starts its function; the function
ends at some later event, and its outcome is recorded then (`finishCall`). Beginnings and endings
of different invocations come in any order. A `CallSystem` is the breaker together with the
invocations whose function is running, each with the circumstances of its admission.

* `CallSystem.stepCall` is the step of an event of an invocation, `CallSystem.step` also that of a
  direct use of the breaker.
* `CallSystem.WellFormed` is the bookkeeping of the identifiers, an invariant of every step.
* `CallSystem.breaker_step_case`: for the breaker an event is one of its operations, or nothing.

The results about such systems are in `CircuitBreaker.Probes` and `CircuitBreaker.Cooldown`.
-/

namespace CircuitBreaker

/-- An invocation of `call` whose function is running. -/
structure Running where
  /-- The number of invocations begun before this one. -/
  id : ℕ
  /-- The state of the circuit when the invocation was admitted. -/
  admittedIn : CircuitState
  /-- The number of `HALF_OPEN` periods begun by then. -/
  period : ℕ
  deriving DecidableEq

/-- A breaker and the invocations of `call` that are running through it. -/
structure CallSystem where
  /-- The shared breaker. -/
  breaker : CircuitBreaker
  /-- The number of invocations begun so far. -/
  begun : ℕ
  /-- The number of times the circuit has become `HALF_OPEN`. -/
  halfOpenPeriods : ℕ
  /-- The admitted invocations that have not ended. -/
  running : List Running
  deriving DecidableEq

/-- What happens to an invocation of `call`. -/
inductive CallEvent where
  /-- A new invocation begins. -/
  | begin
  /-- The function of a running invocation ends. -/
  | finish (id : ℕ) (outcome : Outcome)
  deriving DecidableEq

/-- An event of an invocation, or a direct use of one of the breaker's own methods. -/
inductive Event where
  | call (event : CallEvent)
  | direct (op : Op)
  deriving DecidableEq

namespace CallSystem

/-- A new breaker with no invocations. -/
def start (cb : CircuitBreaker) : CallSystem := ⟨cb, 0, 0, []⟩

/-- The breaker becomes `cb`. -/
def become (s : CallSystem) (cb : CircuitBreaker) : CallSystem :=
  { s with
    breaker := cb
    halfOpenPeriods :=
      if s.breaker.state ≠ .HALF_OPEN ∧ cb.state = .HALF_OPEN then s.halfOpenPeriods + 1
      else s.halfOpenPeriods }

/-- A new invocation begins: what becomes of the system, and whether the function runs. -/
def begin (s : CallSystem) (now : ℚ) : CallSystem × Except PyExc Unit :=
  let (cb, admission) := s.breaker.beginCall now
  let s' := { s.become cb with begun := s.begun + 1 }
  match admission with
  -- the exception leaves `call`, so the invocation is over
  | .error exc => (s', .error exc)
  | .ok () =>
    ({ s' with running := s'.running ++ [⟨s.begun, cb.state, s'.halfOpenPeriods⟩] }, .ok ())

/-- The function of the invocation `id` ends; nothing happens if it is not running. -/
def finish (s : CallSystem) (id : ℕ) (outcome : Outcome) (now : ℚ) : CallSystem :=
  if s.running.any fun r => r.id = id then
    -- the lock is taken again, with the circuit in whatever state it is by now
    { s.become (s.breaker.finishCall outcome now) with
      running := s.running.filter fun r => r.id ≠ id }
  else s

/-- One event of an invocation, with its clock reading. -/
def stepCall (s : CallSystem) (e : CallEvent × ℚ) : CallSystem :=
  match e.1 with
  | .begin => (s.begin e.2).1
  | .finish id outcome => s.finish id outcome e.2

/-- One event, with its clock reading. -/
def step (s : CallSystem) (e : Event × ℚ) : CallSystem :=
  match e.1 with
  | .call event => s.stepCall (event, e.2)
  | .direct op => s.become (s.breaker.step (op, e.2))

/-- The clock readings of a sequence of events never decrease. -/
def ClockNondecreasing {ε : Type} (es : List (ε × ℚ)) : Prop :=
  es.Pairwise fun a b => a.2 ≤ b.2

/-! ## What a beginning does -/

/-- The system after the cooldown check that `call` makes first. -/
def checked (s : CallSystem) (now : ℚ) : CallSystem :=
  s.become (s.breaker.maybeTransitionToHalfOpen now)

/-- An invocation that finds the circuit open after the check raises `CircuitOpenError`, and no
function begins to run. -/
theorem begin_of_open {s : CallSystem} {now : ℚ} (h : (s.checked now).breaker.state = .OPEN) :
    s.begin now =
      ({ s.checked now with begun := s.begun + 1 },
        .error (.of .CircuitOpenError "Circuit breaker is OPEN".toList)) := by
  have h' : (s.breaker.maybeTransitionToHalfOpen now).state = .OPEN := h
  simp only [begin, beginCall, h', if_true]
  rfl

/-- An invocation that finds the circuit closed or half-open is admitted, and its function is among
those `running`. -/
theorem begin_of_ne_open {s : CallSystem} {now : ℚ} (h : (s.checked now).breaker.state ≠ .OPEN) :
    s.begin now =
      ({ s.checked now with
          begun := s.begun + 1
          running := s.running ++
            [⟨s.begun, (s.checked now).breaker.state, (s.checked now).halfOpenPeriods⟩] },
        .ok ()) := by
  have h' : (s.breaker.maybeTransitionToHalfOpen now).state ≠ .OPEN := h
  simp only [begin, beginCall, h', if_false]
  rfl

/-! ## Bookkeeping -/

/-- Running invocations have distinct numbers among those given out, and were admitted in a period
that has begun. -/
structure WellFormed (s : CallSystem) : Prop where
  nodup : (s.running.map Running.id).Nodup
  id_lt : ∀ r ∈ s.running, r.id < s.begun
  period_le : ∀ r ∈ s.running, r.period ≤ s.halfOpenPeriods

theorem wellFormed_start (cb : CircuitBreaker) : (start cb).WellFormed where
  nodup := List.nodup_nil
  id_lt r hr := by cases hr
  period_le r hr := by cases hr

/-- `halfOpenPeriods` is only counted up, so the number of a period names it for good. -/
theorem halfOpenPeriods_le_become (s : CallSystem) (cb : CircuitBreaker) :
    s.halfOpenPeriods ≤ (s.become cb).halfOpenPeriods := by
  unfold become
  dsimp only
  split_ifs
  -- a period begins
  · exact Nat.le_succ _
  · exact le_rfl

/-- A change of the breaker leaves the running functions as they are, and those of them that were
admitted in `HALF_OPEN` belong to a period up to the present one. -/
theorem wellFormed_become {s : CallSystem} (h : s.WellFormed) (cb : CircuitBreaker) :
    (s.become cb).WellFormed where
  nodup := h.nodup
  id_lt := h.id_lt
  period_le r hr := (h.period_le r hr).trans (s.halfOpenPeriods_le_become cb)

/-- Each event keeps `WellFormed`: the beginning of a call, with an identifier of its own, and its
end. -/
theorem wellFormed_begin {s : CallSystem} (h : s.WellFormed) (now : ℚ) :
    (s.begin now).1.WellFormed := by
  have hc : (s.checked now).WellFormed := wellFormed_become h _
  by_cases hs : (s.checked now).breaker.state = .OPEN
  -- rejected: only the counter moves on
  · rw [begin_of_open hs]
    exact ⟨hc.nodup, fun r hr => Nat.lt_succ_of_lt (hc.id_lt r hr), hc.period_le⟩
  · rw [begin_of_ne_open hs]
    refine ⟨?_, fun r hr => ?_, fun r hr => ?_⟩
    · rw [List.map_append, List.map_singleton, List.nodup_append]
      refine ⟨h.nodup, List.nodup_singleton _, ?_⟩
      -- the new invocation has the next unused number
      intro a ha b hb
      obtain ⟨r, hr, rfl⟩ := List.mem_map.mp ha
      have := h.id_lt r hr
      have : b = s.begun := by simpa using hb
      omega
    · rcases List.mem_append.mp hr with hr | hr
      · exact Nat.lt_succ_of_lt (h.id_lt r hr)
      · obtain rfl := List.mem_singleton.mp hr
        exact Nat.lt_succ_self _
    -- and it is admitted in the period there is now
    · rcases List.mem_append.mp hr with hr | hr
      · exact hc.period_le r hr
      · obtain rfl := List.mem_singleton.mp hr
        exact le_rfl

theorem wellFormed_finish {s : CallSystem} (h : s.WellFormed) (id : ℕ) (outcome : Outcome)
    (now : ℚ) : (s.finish id outcome now).WellFormed := by
  unfold finish
  split_ifs
  · have hb := wellFormed_become h (s.breaker.finishCall outcome now)
    refine ⟨?_, fun r hr => hb.id_lt r (List.mem_of_mem_filter hr),
      fun r hr => hb.period_le r (List.mem_of_mem_filter hr)⟩
    exact h.nodup.sublist (List.filter_sublist.map _)
  · exact h

theorem wellFormed_stepCall (s : CallSystem) (e : CallEvent × ℚ) (h : s.WellFormed) :
    (s.stepCall e).WellFormed := by
  obtain ⟨event, now⟩ := e
  cases event with
  | begin => exact wellFormed_begin h now
  | finish id outcome => exact wellFormed_finish h id outcome now

/-- An event performs at most one operation on the breaker, at its own clock reading: runs of calls
are runs of the operations of `Op`. -/
theorem breaker_step (s : CallSystem) (e : Event × ℚ) :
    (s.step e).breaker = s.breaker ∨ ∃ op, (s.step e).breaker = s.breaker.step (op, e.2) := by
  obtain ⟨event, now⟩ := e
  -- a beginning checks the cooldown, an end records an outcome unless it is a cancellation
  cases event with
  | direct op => exact Or.inr ⟨op, rfl⟩
  | call event =>
    cases event with
    | begin =>
      refine Or.inr ⟨.maybeTransitionToHalfOpen, ?_⟩
      change (s.begin now).1.breaker = _
      by_cases hs : (s.checked now).breaker.state = .OPEN
      · rw [begin_of_open hs]
        rfl
      · rw [begin_of_ne_open hs]
        rfl
    | finish id outcome =>
      change (s.finish id outcome now).breaker = _ ∨
        ∃ op, (s.finish id outcome now).breaker = _
      unfold finish
      split_ifs
      · cases outcome with
        | success => exact Or.inr ⟨.recordSuccess, rfl⟩
        | exception => exact Or.inr ⟨.recordFailure, rfl⟩
        | cancelled => exact Or.inl rfl
      · exact Or.inl rfl

/-- An event leaves the breaker as it is or does what `StepCase` lists for one of its operations. -/
theorem breaker_step_case (s : CallSystem) (e : Event × ℚ) :
    (s.step e).breaker = s.breaker ∨ ∃ op, StepCase s.breaker (op, e.2) (s.step e).breaker := by
  rcases s.breaker_step e with hsame | ⟨op, hop⟩
  · exact Or.inl hsame
  · rw [hop]
    exact Or.inr ⟨op, s.breaker.step_case (op, e.2)⟩

end CallSystem

end CircuitBreaker
